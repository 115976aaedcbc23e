/-
  ManagementUnit.Proofs.Table.Mappings
  ────────────────────────────────
  What becomes of the mappings that a table asks for.

  A range that is mapped is a loan: it is handed out, and it has to be given back
  with the same place and length, once.  `outstanding` follows the loans through a
  row of events and fails where something is given back that is not out.  Between
  two uses of a table, what is out is what the table holds: its regions, or
  nothing.  That is so whatever is refused, because a second region that is refused
  sends the first one back, and whatever fails, because nothing else is ever mapped.

  Main results:
    * `Performed.regional` — what is known of mapping and of closing a table is known of
      every use of it.
    * `regional_accounts`  — a use turns what the table held into what it holds.
    * `Performed.settled`  — a table that was mapped or closed maps nothing more.
    * `World.serves`       — the simulated machine keeps just such a book, as long as
      its firmware leaves the book alone.
    * `mappings_accounted` — the books of a table balance over all its uses.
-/
import Mathlib.Algebra.Order.Group.Multiset
import ManagementUnit.Proofs.Simulation.Trace
import ManagementUnit.Proofs.Table.Lookup

namespace ManagementUnit

/-! ## §1. Loans. -/

/-- A range that was handed out: where it is and how long. -/
abbrev Loan := Place × Nat

/-- Whether something is mapped or given back. -/
def Request.isMapping : Request → Bool
  | map .. | unmap .. => true
  | _ => false

theorem Event.Inquiry.unmapping {e : Event} (h : e.Inquiry) : e.request.isMapping = false := by
  cases h <;> rfl

/-- Whether a range is asked to be mapped. -/
def Request.isMap : Request → Bool
  | map .. => true
  | _ => false

/-- What is out after one more event; `none` if something is given back that is
not out. -/
def Event.settle (out : Multiset Loan) : Event → Option (Multiset Loan)
  | ⟨.map _ length, .ok place⟩ => some ((place, length) ::ₘ out)
  | ⟨.unmap place length, _⟩ =>
    if (place, length) ∈ out then some (out.erase (place, length)) else none
  | _ => some out

/-- What is out after events in a row. -/
def outstanding (out : Multiset Loan) (es : List Event) : Option (Multiset Loan) :=
  es.foldlM Event.settle out

/-- What is handed out in a row of events. -/
def lent (es : List Event) : List Loan :=
  es.filterMap fun
    | ⟨.map _ length, .ok place⟩ => some (place, length)
    | _ => none

/-- What is given back in a row of events. -/
def givenBack (es : List Event) : List Loan :=
  es.filterMap fun
    | ⟨.unmap place length, _⟩ => some (place, length)
    | _ => none

section Loans

variable {out out' : Multiset Loan} {es fs : List Event}

theorem outstanding_append_iff :
    outstanding out (es ++ fs) = some out' ↔
      ∃ mid, outstanding out es = some mid ∧ outstanding mid fs = some out' := by
  rw [outstanding, List.foldlM_append]
  exact Option.bind_eq_some_iff

theorem outstanding_unmap_iff {place : Place} {length : Nat} :
    outstanding out (⟨.unmap place length, ()⟩ :: es) = some out' ↔
      (place, length) ∈ out ∧ outstanding (out.erase (place, length)) es = some out' := by
  show (if (place, length) ∈ out then some (out.erase (place, length)) else none) >>= _ = _ ↔ _
  by_cases hmem : (place, length) ∈ out
  · rw [if_pos hmem]
    exact (and_iff_right hmem).symm
  · rw [if_neg hmem]
    constructor
    · intro h
      cases h
    · intro h
      exact absurd h.1 hmem

/-- Where nothing is mapped or given back, what is out stays out. -/
theorem outstanding_of_unmapping (h : ∀ e ∈ es, e.request.isMapping = false) :
    outstanding out es = some out := by
  induction es with
  | nil => rfl
  | cons e es ih =>
    have hrest := ih fun e he => h e (List.mem_cons_of_mem _ he)
    have he := h e List.mem_cons_self
    rcases e with ⟨request, reply⟩
    cases request with
    | map | unmap => cases he
    | identify | readBridge | writeBridge | load | now | note => exact hrest

/-- What was handed out is what was given back and what is still out. -/
theorem lent_eq (h : outstanding out es = some out') :
    (lent es : Multiset Loan) + out = givenBack es + out' := by
  -- what is handed out is added to both sides; what is given back changes sides
  induction es generalizing out with
  | nil =>
    cases h
    rfl
  | cons e es ih =>
    rcases e with ⟨request, reply⟩
    cases request with
    | map base length =>
      cases reply with
      | error => exact ih h
      | ok place =>
        have hrest := ih h
        show (((place, length) :: lent es : List Loan) : Multiset Loan) + out = givenBack es + out'
        rw [← Multiset.cons_coe, Multiset.cons_add, ← Multiset.add_cons]
        exact hrest
    | unmap place length =>
      obtain ⟨hmem, hsettled⟩ := outstanding_unmap_iff.1 h
      show (lent es : Multiset Loan) + out =
        (((place, length) :: givenBack es : List Loan) : Multiset Loan) + out'
      rw [← Multiset.cons_coe, Multiset.cons_add, ← ih hsettled, ← Multiset.add_cons,
        Multiset.cons_erase hmem]
    | identify | readBridge | writeBridge | load | now | note => exact ih h

end Loans

/-! ## §2. What a table holds. -/

/-- The loan that a region is. -/
def Region.loan (r : Region) : Loan := (r.place, r.length)

/-- What a mapping has to give back. -/
def TableMapping.loans (mapping : TableMapping) : Multiset Loan :=
  (mapping.regions.map Region.loan : List Loan)

namespace TableReader

/-- What a table has to give back. -/
def held (t : TableReader) : Multiset Loan := (t.regions.map Region.loan : List Loan)

/-! ## §3. One use. -/

/-- The events turn what `t` holds into what `t'` holds. -/
def Accounts (t : TableReader) (es : List Event) (t' : TableReader) : Prop :=
  outstanding t.held es = some t'.held

variable {t t₁ t' : TableReader} {es fs : List Event}

theorem Accounts.append (h : Accounts t es t₁) (h' : Accounts t₁ fs t') :
    Accounts t (es ++ fs) t' :=
  outstanding_append_iff.2 ⟨t₁.held, h, h'⟩

theorem Accounts.ofUnmapping (hes : ∀ e ∈ es, e.request.isMapping = false)
    (ht : t'.mapping? = t.mapping?) : Accounts t es t' := by
  have hheld : t'.held = t.held := by rw [held, held, regions, regions, ht]
  rw [Accounts, hheld]
  exact outstanding_of_unmapping hes

end TableReader

namespace TableMapping

variable {g : Geometry} {es : List Event} {out : Multiset Loan} {mapping : TableMapping}

/-- What is mapped is out. -/
theorem Established.lends (h : Established g es (.ok mapping)) :
    outstanding out es = some (mapping.loans + out) := by
  cases h with
  | single p hg => rfl
  | both p q hg =>
    show some ((q, _) ::ₘ (p, _) ::ₘ out) = some (((p, _) ::ₘ (q, _) ::ₘ 0) + out)
    rw [Multiset.cons_add, Multiset.cons_add, zero_add, Multiset.cons_swap]

/-- Where mapping is refused, nothing stays out. -/
theorem Established.restores {e : Failure} (h : Established g es (.error e)) :
    outstanding out es = some out := by
  cases h with
  | refused e => rfl
  | undone p e hg =>
    refine outstanding_unmap_iff.2 ⟨Multiset.mem_cons_self _ _, ?_⟩
    rw [Multiset.erase_cons_head]
    rfl

/-- Regions that are out can be given back. -/
theorem outstanding_returned (rs : List Region) (out : Multiset Loan) :
    outstanding ((rs.map Region.loan : List Loan) + out) (returned rs) = some out := by
  induction rs with
  | nil =>
    rw [List.map_nil, Multiset.coe_nil, zero_add]
    rfl
  | cons r rs ih =>
    rw [List.map_cons, ← Multiset.cons_coe, Multiset.cons_add]
    refine outstanding_unmap_iff.2 ⟨Multiset.mem_cons_self _ _, ?_⟩
    rw [← Region.loan, Multiset.erase_cons_head]
    exact ih

end TableMapping

namespace TableReader

variable {m : Mailboxes} {t t' : TableReader} {es : List Event}

theorem LookedUp.unmapping {r : Except Failure Geometry} (h : LookedUp m t es r t') :
    ∀ e ∈ es, e.request.isMapping = false :=
  h.forall_events (fun _ he => he.unmapping) fun _ => rfl

theorem Transferred.unmapping {r : Except Failure Unit} (h : Transferred m t es r t') :
    ∀ e ∈ es, e.request.isMapping = false :=
  h.forall_events (fun _ he => he.unmapping) rfl fun _ => rfl

theorem Throttled.unmapping {r : Except Failure Bool} (h : Throttled m t es r t') :
    ∀ e ∈ es, e.request.isMapping = false :=
  h.forall_events (fun _ he => he.unmapping) rfl fun _ => rfl

theorem unmapping_of_copyInto {mapping : TableMapping} {buffer filled : Bytes}
    (h : (mapping.copyInto buffer).Reaches es filled) : ∀ e ∈ es, e.request.isMapping = false := by
  intro e he
  obtain ⟨place, count, hload⟩ := TableMapping.reaches_copyInto h e he
  rw [hload]
  rfl

/-- `R t es t'` tells what the events `es` have to do with the regions of a table that
they take from `t` to `t'`, and sees nothing else of it. -/
structure Regional (R : TableReader → List Event → TableReader → Prop) : Prop where
  append : ∀ {t t₁ t' : TableReader} {es fs : List Event},
    R t es t₁ → R t₁ fs t' → R t (es ++ fs) t'
  unmapping : ∀ {t t' : TableReader} {es : List Event},
    (∀ e ∈ es, e.request.isMapping = false) → t'.mapping? = t.mapping? → R t es t'
  mapped : ∀ {g : Geometry} {t t' : TableReader} {es : List Event}
    {r : Except Failure TableMapping}, Mapped g t es r t' → R t es t'
  closed : ∀ {t t' : TableReader} {es : List Event}, Closed t es t' → R t es t'

section Regional

variable {R : TableReader → List Event → TableReader → Prop}

theorem LookedUp.regional {r : Except Failure Geometry} (h : LookedUp m t es r t')
    (hR : Regional R) : R t es t' := hR.unmapping h.unmapping (by rw [h.frame])

theorem Throttled.regional {r : Except Failure Bool} (h : Throttled m t es r t')
    (hR : Regional R) : R t es t' := hR.unmapping h.unmapping (by rw [h.frame])

theorem Prepared.regional {room? : Option Nat} {r : Except Failure (Geometry × TableMapping)}
    (h : Prepared m room? t es r t') (hR : Regional R) : R t es t' := by
  cases h with
  | closed => exact hR.unmapping (List.forall_mem_singleton.2 rfl) rfl
  | unlocated hopen h => exact h.regional hR
  | short hopen h =>
    exact hR.append (h.regional hR) (hR.unmapping (List.forall_mem_singleton.2 rfl) rfl)
  | renewed hopen h hroom hrenewed =>
    refine hR.append (h.regional hR) ?_
    cases hrenewed with
    | untransferred h => exact h.regional hR
    | mapped h hmap => exact hR.append (h.regional hR) (hR.mapped hmap)

/-- So it tells what each use has to do with the regions of its table. -/
theorem Performed.regional {operation : TableOperation} {outcome : TableOutcome}
    (h : Performed m t operation es outcome t') (hR : Regional R) : R t es t' := by
  cases h with
  | geometry h => exact h.regional hR
  | transfer h => exact hR.unmapping h.unmapping (by rw [h.frame])
  | transferIfDue h => exact h.regional hR
  | prepare h => exact h.regional hR
  | close h => exact hR.closed h
  | read h =>
    cases h with
    | failed h => exact h.regional hR
    | copied h hfs =>
      exact hR.append (h.regional hR) (hR.unmapping (unmapping_of_copyInto hfs) rfl)

theorem regional_of_history {us : List TableUse} (h : History perform t us t')
    (hR : Regional R) : R t (journal us) t' := by
  -- each use goes on from the regions that the one before it left
  induction h with
  | nil => exact hR.unmapping (List.forall_mem_nil _) rfl
  | cons hu _ ih => exact hR.append (hu.performed.regional hR) ih

end Regional

theorem Mapped.accounts {g : Geometry} {r : Except Failure TableMapping} (h : Mapped g t es r t') :
    Accounts t es t' := by
  cases h with
  | kept => rfl
  | failed hnone hes => exact hes.restores
  | established hnone hes =>
    rw [Accounts, held, regions, hnone]
    exact hes.lends.trans (congrArg some (add_zero _))

theorem Closed.accounts (h : Closed t es t') : Accounts t es t' := by
  cases h with
  | bare hnone => exact .ofUnmapping (List.forall_mem_nil _) hnone.symm
  | @released mapping h =>
    have hreturned := TableMapping.outstanding_returned mapping.regions 0
    rw [add_zero] at hreturned
    rw [Accounts, held, regions, h]
    exact outstanding_append_iff.2 ⟨0, hreturned, rfl⟩

/-- Any use turns what the table held into what it holds. -/
theorem regional_accounts : Regional Accounts where
  append := Accounts.append
  unmapping := .ofUnmapping
  mapped := Mapped.accounts
  closed := Closed.accounts

/-! ## §4. Nothing is mapped twice. -/

/-- The table is mapped, or it was closed. -/
def Settled (t : TableReader) : Prop := t.mapping? ≠ none ∨ t.closed = true

theorem Mapped.settled {g : Geometry} {r : Except Failure TableMapping} (h : Mapped g t es r t')
    (ht : t.mapping? ≠ none) : es = [] ∧ t' = t := by
  cases h with
  | kept => exact ⟨rfl, rfl⟩
  | established hnone | failed hnone => exact absurd hnone ht

theorem Prepared.settled {room? : Option Nat} {r : Except Failure (Geometry × TableMapping)}
    (h : Prepared m room? t es r t') (ht : t.Settled) :
    (∀ e ∈ es, e.request.isMapping = false) ∧ t'.mapping? = t.mapping? ∧ t'.closed = t.closed := by
  cases h with
  | closed => exact ⟨List.forall_mem_singleton.2 rfl, rfl, rfl⟩
  | unlocated hopen h =>
    rw [h.frame]
    exact ⟨h.unmapping, rfl, rfl⟩
  | short hopen h =>
    rw [h.frame]
    exact ⟨List.forall_mem_append.2 ⟨h.unmapping, List.forall_mem_singleton.2 rfl⟩, rfl, rfl⟩
  | @renewed es fs g t₁ t' r hopen h hroom hrenewed =>
    have hmapped : t.mapping? ≠ none := ht.resolve_right (by rw [hopen]; exact Bool.false_ne_true)
    have hlookup : t₁.mapping? = t.mapping? ∧ t₁.closed = t.closed := by
      rw [h.frame]
      exact ⟨rfl, rfl⟩
    rw [← hlookup.1, ← hlookup.2]
    rw [← hlookup.1] at hmapped
    cases hrenewed with
    | untransferred hdue =>
      rw [hdue.frame]
      exact ⟨List.forall_mem_append.2 ⟨h.unmapping, hdue.unmapping⟩, rfl, rfl⟩
    | @mapped fs gs b r t₂ t' hdue hmap =>
      have hmapped₂ : t₂.mapping? ≠ none := by
        rw [hdue.frame]
        exact hmapped
      obtain ⟨rfl, rfl⟩ := hmap.settled hmapped₂
      rw [List.append_nil, hdue.frame]
      exact ⟨List.forall_mem_append.2 ⟨h.unmapping, hdue.unmapping⟩, rfl, rfl⟩

theorem isMap_of_unmapping (h : ∀ e ∈ es, e.request.isMapping = false) :
    ∀ e ∈ es, e.request.isMap = false := by
  rintro ⟨request, reply⟩ he
  have hrequest := h _ he
  cases request with
  | map => cases hrequest
  | identify | readBridge | writeBridge | unmap | load | now | note => rfl

/-- A table that was mapped or closed maps nothing more. -/
theorem Performed.settled {operation : TableOperation} {outcome : TableOutcome}
    (h : Performed m t operation es outcome t') (ht : t.Settled) :
    (∀ e ∈ es, e.request.isMap = false) ∧ t'.Settled := by
  have hkept : t'.mapping? = t.mapping? → t'.closed = t.closed → t'.Settled := by
    intro hmapping hclosed
    rw [Settled, hmapping, hclosed]
    exact ht
  have hprepared : ∀ {room? es r}, Prepared m room? t es r t' →
      (∀ e ∈ es, e.request.isMapping = false) ∧ t'.Settled := by
    intro room? es r h
    obtain ⟨hes, hmapping, hclosed⟩ := h.settled ht
    exact ⟨hes, hkept hmapping hclosed⟩
  cases h with
  | geometry h => exact ⟨isMap_of_unmapping h.unmapping, hkept (by rw [h.frame]) (by rw [h.frame])⟩
  | transfer h => exact ⟨isMap_of_unmapping h.unmapping, hkept (by rw [h.frame]) (by rw [h.frame])⟩
  | transferIfDue h =>
    exact ⟨isMap_of_unmapping h.unmapping, hkept (by rw [h.frame]) (by rw [h.frame])⟩
  | prepare h =>
    obtain ⟨hes, ht'⟩ := hprepared h
    exact ⟨isMap_of_unmapping hes, ht'⟩
  | read h =>
    cases h with
    | failed h =>
      obtain ⟨hes, ht'⟩ := hprepared h
      exact ⟨isMap_of_unmapping hes, ht'⟩
    | copied h hfs =>
      obtain ⟨hes, ht'⟩ := hprepared h
      exact ⟨isMap_of_unmapping (List.forall_mem_append.2 ⟨hes, unmapping_of_copyInto hfs⟩), ht'⟩
  | close h =>
    refine ⟨h.forall_events (fun _ _ => rfl) rfl, .inr ?_⟩
    rw [h.frame]

/-! ## §5. All uses. -/

variable {us : List TableUse}

theorem settled_of_history (h : History perform t us t') (ht : t.Settled) :
    (∀ e ∈ journal us, e.request.isMap = false) ∧ t'.Settled := by
  induction h with
  | nil => exact ⟨List.forall_mem_nil _, ht⟩
  | cons hu _ ih =>
    obtain ⟨hes, hu'⟩ := hu.performed.settled ht
    obtain ⟨hrest, ht'⟩ := ih hu'
    exact ⟨List.forall_mem_append.2 ⟨hes, hrest⟩, ht'⟩

end TableReader

/-! ## §6. Simulated memory. -/

namespace Simulation

/-- Memory that answers what is asked of it in a row of events, and that may change
in any other way meanwhile, as long as this leaves the mappings alone. -/
inductive Memory.Serves : Memory → List Event → Memory → Prop where
  | nil (memory : Memory) : Serves memory [] memory
  | changed {memory memory₁ memory' : Memory} {es : List Event} (h : memory₁.live = memory.live) :
      Serves memory₁ es memory' → Serves memory es memory'
  | map {memory memory' : Memory} {base : PhysicalAddress} {length : Nat} {es : List Event} :
      Serves (memory.map base length).2 es memory' →
        Serves memory (⟨.map base length, (memory.map base length).1⟩ :: es) memory'
  | unmap {memory memory' : Memory} {place : Place} {length : Nat} {es : List Event} :
      Serves (memory.unmap place length) es memory' →
        Serves memory (⟨.unmap place length, ()⟩ :: es) memory'
  | other {memory memory' : Memory} {e : Event} {es : List Event}
      (h : e.request.isMapping = false) :
      Serves memory es memory' → Serves memory (e :: es) memory'

theorem Memory.live_map (memory : Memory) (base : PhysicalAddress) (length : Nat) :
    (∃ e, (memory.map base length).1 = .error e ∧ (memory.map base length).2.live = memory.live) ∨
      ∃ p, (memory.map base length).1 = .ok p ∧
        (memory.map base length).2.live = memory.live ++ [(p, length)] := by
  unfold map
  dsimp only
  split
  · exact .inl ⟨_, rfl, rfl⟩
  · split
    · exact .inr ⟨_, rfl, rfl⟩
    · exact .inl ⟨_, rfl, rfl⟩

theorem Memory.live_unmap {memory : Memory} {place : Place} {length : Nat}
    (h : (place, length) ∈ memory.live) :
    (memory.unmap place length).live = memory.live.erase (place, length) := by
  rw [unmap, if_pos h]

/-- The memory keeps the same book of loans, beside those that others have. -/
theorem Memory.Serves.live_eq {memory memory' : Memory} {es : List Event}
    (h : memory.Serves es memory') {others out out' : Multiset Loan}
    (hlive : (memory.live : Multiset Loan) = out + others) (hout : outstanding out es = some out') :
    (memory'.live : Multiset Loan) = out' + others := by
  -- by induction on what is asked of the memory; `others` never moves
  induction h generalizing out with
  | nil =>
    cases hout
    exact hlive
  | changed h _ ih => exact ih (by rw [h, hlive]) hout
  | @map memory _ base length es _ ih =>
    obtain ⟨e, hreply, hsame⟩ | ⟨p, hreply, hmore⟩ := memory.live_map base length
    · rw [hreply] at hout
      exact ih (by rw [hsame, hlive]) hout
    · rw [hreply] at hout
      have hmore' : ((memory.map base length).2.live : Multiset Loan) =
          (p, length) ::ₘ out + others := by
        rw [hmore, ← Multiset.coe_add, hlive, Multiset.cons_add, Multiset.coe_singleton, add_comm,
          Multiset.singleton_add]
      exact ih hmore' hout
  | @unmap memory _ place length es _ ih =>
    obtain ⟨hmem, hrest⟩ := outstanding_unmap_iff.1 hout
    have hfound : (place, length) ∈ memory.live := by
      rw [← Multiset.mem_coe, hlive]
      exact Multiset.mem_add.2 (.inl hmem)
    refine ih ?_ hrest
    have hlive' := Multiset.coe_eq_coe.2 (List.perm_cons_erase hfound)
    rw [hlive, ← Multiset.cons_coe, ← Multiset.cons_erase hmem, Multiset.cons_add] at hlive'
    rw [live_unmap hfound]
    exact ((Multiset.cons_inj_right _).1 hlive').symm
  | @other memory memory' e es he _ ih =>
    change outstanding out ([e] ++ es) = some out' at hout
    obtain ⟨mid, hone, hrest⟩ := outstanding_append_iff.1 hout
    rw [outstanding_of_unmapping (List.forall_mem_singleton.2 he)] at hone
    cases hone
    exact ih hlive hrest

namespace World

variable {η : Type} {firmware : Firmware (η × Memory)}

/-- Firmware that maps nothing and gives nothing back. -/
def KeepsMappings (firmware : Firmware (η × Memory)) : Prop :=
  ∀ command opcode words s, (firmware command opcode words s).2.2.live = s.2.live

/-- The memory of the simulated machine serves whatever is asked of the machine. -/
theorem serves (hfirmware : KeepsMappings firmware) {w w' : World η} {es : List Event}
    (h : Answers (platform firmware) w es w') : w.memory.Serves es w'.memory := by
  induction h with
  | nil => exact .nil _
  | @cons request w w' es _ ih =>
    cases request with
    | map base length => exact .map ih
    | unmap place length => exact .unmap ih
    | writeBridge offset value =>
      exact .other rfl (.changed (memory_writeBridge hfirmware w offset value) ih)
    | identify | readBridge | load | now | note => exact .other rfl ih

end World
end Simulation

/-! ## §7. The books of a table. -/

open TableReader
open Simulation (Memory)

/-- The books of a table right after the use `u`, with the uses before and after
it; `calls` are the calls they were made for. -/
structure Balanced (calls : List TableCall) (before : List TableUse) (u : TableUse)
    (after : List TableUse) : Prop where
  /-- Nothing was given back that was not out, and what is out is what the table
  holds. -/
  settled : outstanding 0 (journal (before ++ [u])) = some u.after.held
  /-- What was handed out was given back at most once; the rest is what the table
  holds. -/
  lent_eq : (lent (journal (before ++ [u])) : Multiset Loan) =
    givenBack (journal (before ++ [u])) + u.after.held
  /-- The table holds nothing, or the regions of its geometry, as many and as long
  as the layout of its generation says. -/
  regions : u.after.regions = [] ∨ ∃ g layout, u.after.located? = some g ∧
    u.after.regions.map Region.extent = g.extents ∧ layout.Shapes g ∧
      ∃ call ∈ calls, call.mailboxes.codename.layout? = some layout
  /-- A table that is mapped asks for no mapping any more. -/
  once : u.after.regions ≠ [] → ∀ e ∈ journal after, e.request.isMap = false
  /-- Of a table that was closed nothing is out, then and ever after. -/
  closed : u.call.operation = .close → ∀ v ∈ u :: after, v.after.held = 0

theorem TableReader.Sound.held_of_closed {t : TableReader} (h : t.Sound)
    (hclosed : t.closed = true) : t.held = 0 := by
  rw [held, TableReader.regions, h.closed hclosed]
  rfl

/-- Whatever a platform refuses or answers, the books of a table balance after
each of its uses, and no memory is ever given back a mapping that it did not hand
out. -/
theorem mappings_accounted {σ : Type} (platform : Platform σ) (s : σ) (c : Codename)
    (interval : Duration) (calls : List TableCall) :
    (∀ before u after, tableUses platform s c interval calls = before ++ u :: after →
      Balanced calls before u after) ∧
    ∀ (memory mid : Memory) (es fs : List Event) (place : Place) (length : Nat),
      journal (tableUses platform s c interval calls) =
        es ++ ⟨.unmap place length, ()⟩ :: fs →
      memory.Serves es mid → (place, length) ∈ mid.live := by
  obtain ⟨t', hall⟩ := history_tableUses platform s c interval calls
  refine ⟨?_, ?_⟩
  · intro before u after hsplit
    rw [hsplit] at hall
    obtain ⟨t₁, hbefore, hu, hafter⟩ := hall.split
    have huses := hbefore.concat hu
    -- a new table holds nothing, so the books start at zero
    have hsettled : outstanding 0 (journal (before ++ [u])) = some u.after.held :=
      regional_of_history huses regional_accounts
    refine ⟨hsettled, ?_, ?_, ?_, ?_⟩
    · have hlent := lent_eq hsettled
      rwa [add_zero] at hlent
    · obtain hnone | ⟨g, hg, hextents⟩ := (sound_of_history huses).regions_eq
      · exact .inl hnone
      · obtain ⟨v, hv, layout, hlayout, hshape⟩ := shaped_of_history huses g hg
        have hmem : v ∈ tableUses platform s c interval calls := by
          rw [hsplit, List.append_cons]
          exact List.mem_append_left _ hv
        exact .inr ⟨g, layout, hg, hextents, hshape, v.call, call_mem_of_uses hmem, hlayout⟩
    · intro hregions
      refine (settled_of_history hafter (.inl ?_)).1
      intro hnone
      rw [TableReader.regions, hnone] at hregions
      exact hregions rfl
    · intro hclose
      have hclosed : u.after.closed = true := by
        rw [hu.performed.closed_eq, hclose]
        exact Bool.or_true _
      have hsound := sound_of_history huses
      have hrest := hafter.forall_after (P := fun t => t.Sound ∧ t.closed = true)
        (fun _ _ _ hv ht => ⟨hv.performed.sound ht.1, by rw [hv.performed.closed_eq, ht.2]; rfl⟩)
        ⟨hsound, hclosed⟩
      refine List.forall_mem_cons.2 ⟨hsound.held_of_closed hclosed, ?_⟩
      intro v hv
      exact (hrest v hv).1.held_of_closed (hrest v hv).2
  · intro memory mid es fs place length hsplit hserves
    have hsettled := regional_of_history hall regional_accounts
    change outstanding 0 _ = some t'.held at hsettled
    -- the books of the whole run balance, so they did when this was given back
    rw [hsplit] at hsettled
    obtain ⟨out, hbefore, hafter⟩ := outstanding_append_iff.1 hsettled
    have hlive := hserves.live_eq (zero_add _).symm hbefore
    rw [← Multiset.mem_coe, hlive]
    exact Multiset.mem_add.2 (.inl (outstanding_unmap_iff.1 hafter).1)

end ManagementUnit
