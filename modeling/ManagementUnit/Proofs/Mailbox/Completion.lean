/-
  ManagementUnit.Proofs.Mailbox.Completion
  ────────────────────────────────
  Transactions against firmware that takes its time.

  Firmware completes a command at any moment after it was written, also long
  after the driver gave up waiting for it: it stores words in the argument
  registers and a status in the response register.  A later transaction on the
  same mailbox must neither disturb a command that is still running nor take the
  answer to it for its own.

  What makes this work is that a command runs only while the response register
  is zero (`Counterpart.Sound`): the driver clears the register before it writes
  an opcode, and does neither before it has seen the register not zero.  The
  invariant needs no word on faults, since an access that faults has no effect.

  Main results:
    * `Follows.sound`      — a transaction keeps the invariant, however it ends.
    * `Follows.quiet`      — it writes registers only while no command is pending.
    * `Follows.answered`   — a status that it reports is the one that its own
      command was completed with.
    * `answer_is_own`      — all of it, after any sequence of transactions.
-/
import ManagementUnit.Proofs.Mailbox.Course

namespace ManagementUnit

/-! ## §1. Firmware that completes commands late. -/

/-- An answer that was given: to which command, and what was stored. -/
structure Completion where
  command : Nat
  status : UInt32
  words : Arguments

/-- The registers of a mailbox and the firmware at work behind them.  Commands
are numbered in the order in which they were written. -/
structure Counterpart where
  registers : UInt32 → UInt32
  /-- How many commands were written so far. -/
  written : Nat
  /-- The commands that are not completed yet. -/
  pending : List Nat
  /-- The answers so far, latest first. -/
  completions : List Completion

namespace Counterpart

/-- The firmware completes a command. -/
def complete (b : RegisterBlock) (s : Counterpart) (c : Completion) : Counterpart where
  registers := storeAll s.registers (b.reply c.words c.status)
  written := s.written
  pending := s.pending.erase c.command
  completions := c :: s.completions

/-- The driver stores a word; in the command register it starts a command. -/
def store (b : RegisterBlock) (s : Counterpart) (a v : UInt32) : Counterpart where
  registers := Function.update s.registers a v
  written := if a = b.command then s.written + 1 else s.written
  pending := if a = b.command then s.pending ++ [s.written] else s.pending
  completions := s.completions

end Counterpart

/-- What one access does.  An access that faults has no effect. -/
inductive Effect (b : RegisterBlock) : Counterpart → Access → Counterpart → Prop where
  | fault {s : Counterpart} {x : Access} (hx : x.fault? ≠ none) : Effect b s x s
  | read {s : Counterpart} (a : UInt32) : Effect b s (.read a (.ok (s.registers a))) s
  | write {s : Counterpart} (a v : UInt32) : Effect b s (.write a v (.ok ())) (s.store b a v)

/-- `Follows b s as s'`: the driver makes the accesses `as`, the firmware
completes commands in between when it likes, and this leads from `s` to `s'`. -/
inductive Follows (b : RegisterBlock) : Counterpart → List Access → Counterpart → Prop where
  | nil (s : Counterpart) : Follows b s [] s
  /-- A pending command is completed, with any words and any status but zero. -/
  | complete {s s' : Counterpart} {as : List Access} (c : Completion)
      (hpending : c.command ∈ s.pending) (hstatus : c.status ≠ 0)
      (h : Follows b (s.complete b c) as s') : Follows b s as s'
  | access {s mid s' : Counterpart} {x : Access} {as : List Access} (hx : Effect b s x mid)
      (h : Follows b mid as s') : Follows b s (x :: as) s'

/-- The firmware can tell accesses apart no better than the bridge can. -/
theorem Effect.ofPlain {b : RegisterBlock} {s s' : Counterpart} {x y : Access}
    (h : Effect b s x s') (heq : x.plain = y.plain) : Effect b s y s' := by
  cases h with
  | fault hx =>
    refine .fault ?_
    rwa [← Access.fault?_plain, ← heq, Access.fault?_plain]
  | read a => exact Access.eq_of_plain heq rfl ▸ .read a
  | write a v => exact Access.eq_of_plain heq rfl ▸ .write a v

namespace Follows

variable {b : RegisterBlock} {s s' : Counterpart} {as bs : List Access}

/-- Accesses that the bridge cannot tell apart lead to the same. -/
theorem ofPlain (h : Follows b s as s') (heq : as.map Access.plain = bs.map Access.plain) :
    Follows b s bs s' := by
  induction h generalizing bs with
  | nil s =>
    rw [List.map_eq_nil_iff.1 heq.symm]
    exact .nil s
  | complete c hpending hstatus _ ih => exact .complete c hpending hstatus (ih heq)
  | access hx _ ih =>
    cases bs with
    | nil => cases heq
    | cons y bs =>
      obtain ⟨hxy, heq⟩ := List.cons_eq_cons.1 heq
      exact .access (hx.ofPlain hxy) (ih heq)

/-- Accesses in a row lead through a state in between. -/
theorem split (h : Follows b s (as ++ bs) s') :
    ∃ mid, Follows b s as mid ∧ Follows b mid bs s' := by
  generalize hcs : as ++ bs = cs at h
  induction h generalizing as with
  | nil s =>
    obtain ⟨rfl, rfl⟩ := List.append_eq_nil_iff.1 hcs
    exact ⟨s, .nil s, .nil s⟩
  | complete c hpending hstatus _ ih =>
    obtain ⟨mid, h₁, h₂⟩ := ih hcs
    exact ⟨mid, .complete c hpending hstatus h₁, h₂⟩
  | @access s _ _ x cs hx h ih =>
    cases as with
    | nil =>
      refine ⟨s, .nil s, ?_⟩
      rw [List.nil_append] at hcs
      rw [hcs]
      exact .access hx h
    | cons y as =>
      rw [List.cons_append, List.cons_eq_cons] at hcs
      obtain ⟨rfl, hcs⟩ := hcs
      obtain ⟨mid, h₁, h₂⟩ := ih hcs
      exact ⟨mid, .access hx h₁, h₂⟩

theorem append {mid : Counterpart} (h : Follows b s as mid) (h' : Follows b mid bs s') :
    Follows b s (as ++ bs) s' := by
  induction h with
  | nil => exact h'
  | complete c hpending hstatus _ ih => exact .complete c hpending hstatus (ih h')
  | access hx _ ih => exact .access hx (ih h')

/-- The last access happens at some moment, and after it there is nothing but
completions. -/
theorem last {x : Access} (h : Follows b s (as ++ [x]) s') :
    ∃ t t', Follows b s as t ∧ Effect b t x t' ∧ Follows b t' [] s' := by
  obtain ⟨mid, h₁, h₂⟩ := h.split
  -- commands may be completed before the access as well as after it
  have hsingle : ∃ t t', Follows b mid [] t ∧ Effect b t x t' ∧ Follows b t' [] s' := by
    clear h₁ h
    generalize hcs : [x] = cs at h₂
    induction h₂ with
    | nil => cases hcs
    | complete c hpending hstatus _ ih =>
      obtain ⟨t, t', h₁, hx, h₂⟩ := ih hcs
      exact ⟨t, t', .complete c hpending hstatus h₁, hx, h₂⟩
    | @access s mid _ _ _ hx h _ =>
      cases hcs
      exact ⟨s, mid, .nil s, hx, h⟩
  obtain ⟨t, t', hmid, hx, h'⟩ := hsingle
  refine ⟨t, t', ?_, hx, h'⟩
  have := h₁.append hmid
  rwa [List.append_nil] at this

/-- The last word that was read is what its register had. -/
theorem lastRead {a v : UInt32} (h : Follows b s (as ++ [.read a (.ok v)]) s') :
    ∃ t, Follows b s as t ∧ t.registers a = v ∧ Follows b t [] s' := by
  obtain ⟨t, t', h₁, hx, h₂⟩ := h.last
  cases hx with
  | fault hx => exact absurd rfl hx
  | read => exact ⟨t, h₁, rfl, h₂⟩

theorem lastWrite {a v : UInt32} (h : Follows b s (as ++ [.write a v (.ok ())]) s') :
    ∃ t, Follows b s as t ∧ Follows b (t.store b a v) [] s' := by
  obtain ⟨t, t', h₁, hx, h₂⟩ := h.last
  cases hx with
  | fault hx => exact absurd rfl hx
  | write => exact ⟨t, h₁, h₂⟩

/-- What every completion and every word stored keeps is kept by the whole run. -/
theorem keeps {P : Counterpart → Prop} (h : Follows b s as s') (hs : P s)
    (hcomplete : ∀ t c, P t → c.command ∈ t.pending → c.status ≠ 0 → P (t.complete b c))
    (hwrite : ∀ t a v, P t → .write a v (.ok ()) ∈ as → P (t.store b a v)) : P s' := by
  induction h with
  | nil s => exact hs
  | complete c hpending hstatus _ ih => exact ih (hcomplete _ c hs hpending hstatus) hwrite
  | access hx _ ih =>
    have hrest := fun t a v ht hmem => hwrite t a v ht (List.mem_cons_of_mem _ hmem)
    cases hx with
    | fault _ => exact ih hs hrest
    | read a => exact ih hs hrest
    | write a v => exact ih (hwrite _ a v hs List.mem_cons_self) hrest

end Follows

/-! ## §2. The invariant. -/

namespace Counterpart

variable {b : RegisterBlock} {s : Counterpart}

/-- Command `n` runs, alone, and the response register is zero. -/
def Running (b : RegisterBlock) (n : Nat) (s : Counterpart) : Prop :=
  s.pending = [n] ∧ s.registers b.response = 0

/-- No command runs, and the registers show what command `n` was completed
with. -/
def Answered (b : RegisterBlock) (n : Nat) (s : Counterpart) : Prop :=
  s.pending = [] ∧ ∃ c ∈ s.completions, c.command = n ∧ s.registers b.response = c.status ∧
    ∀ i : Fin wordCount, s.registers (b.argument i.val) = c.words.get i

/-- The state between two transactions: no command runs, or a single one with
the response register at zero. -/
def Sound (b : RegisterBlock) (s : Counterpart) : Prop := s.pending = [] ∨ ∃ n, Running b n s

/-- Command `n` was the last one written: it runs, or it was answered. -/
def Awaited (b : RegisterBlock) (n : Nat) (s : Counterpart) : Prop :=
  s.written = n + 1 ∧ (Running b n s ∨ Answered b n s)

/-- Completing the only command that runs answers it. -/
theorem Running.complete (h : b.registers.Nodup) {n : Nat} {c : Completion} (hs : Running b n s)
    (hc : c.command ∈ s.pending) : Answered b n (s.complete b c) := by
  obtain ⟨hpending, -⟩ := hs
  rw [hpending, List.mem_singleton] at hc
  refine ⟨?_, c, List.mem_cons_self, hc, ?_, ?_⟩
  · show s.pending.erase c.command = []
    rw [hpending, hc, List.erase_cons_head]
  · exact RegisterBlock.storeAll_reply_response h ..
  · intro i
    exact RegisterBlock.storeAll_reply_argument h ..

theorem Sound.complete (h : b.registers.Nodup) {c : Completion} (hs : Sound b s)
    (hc : c.command ∈ s.pending) : Sound b (s.complete b c) := by
  rcases hs with hquiet | ⟨n, hrun⟩
  · rw [hquiet] at hc
    cases hc
  · exact .inl (hrun.complete h hc).1

theorem Awaited.complete (h : b.registers.Nodup) {n : Nat} {c : Completion} (hs : Awaited b n s)
    (hc : c.command ∈ s.pending) : Awaited b n (s.complete b c) := by
  obtain ⟨hwritten, hrun | hanswered⟩ := hs
  · exact ⟨hwritten, .inr (hrun.complete h hc)⟩
  · rw [hanswered.1] at hc
    cases hc

theorem Awaited.sound {n : Nat} (hs : Awaited b n s) : Sound b s := by
  obtain ⟨-, hrun | hanswered⟩ := hs
  · exact .inr ⟨n, hrun⟩
  · exact .inl hanswered.1

theorem Sound.quiet (hs : Sound b s) (hresponse : s.registers b.response ≠ 0) : s.pending = [] := by
  rcases hs with hquiet | ⟨n, -, hzero⟩
  · exact hquiet
  · exact absurd hzero hresponse

/-- If the response register is not zero, the command that was awaited is
answered. -/
theorem Awaited.answered {n : Nat} (hs : Awaited b n s) (hresponse : s.registers b.response ≠ 0) :
    Answered b n s := by
  obtain ⟨-, ⟨-, hzero⟩ | hanswered⟩ := hs
  · exact absurd hzero hresponse
  · exact hanswered

end Counterpart

/-! ## §3. Phases of a transaction. -/

namespace Follows

open Counterpart

variable {b : RegisterBlock} {s s' : Counterpart} {as bs : List Access}

/-- The accesses `as` store nothing. -/
def StoresNothing (as : List Access) : Prop := ∀ a v, .write a v (.ok ()) ∉ as

/-- While no command runs and nothing is stored, nothing changes. -/
theorem unchanged (h : Follows b s as s') (hquiet : s.pending = []) (has : StoresNothing as) :
    s' = s := by
  -- only what is pending can be completed, so both are kept together
  have hboth : s' = s ∧ s'.pending = [] := by
    refine h.keeps (P := fun t => t = s ∧ t.pending = []) ⟨rfl, hquiet⟩ ?_ ?_
    · intro t c hpost hc
      obtain ⟨-, ht⟩ := hpost
      rw [ht] at hc
      cases hc
    · intro t a v _ hmem
      exact absurd hmem (has a v)
  exact hboth.1

/-- While nothing is stored, the invariant is kept and no command is written. -/
theorem sound_of_reads (hnodup : b.registers.Nodup) (h : Follows b s as s') (hs : Sound b s)
    (has : StoresNothing as) : Sound b s' ∧ s'.written = s.written := by
  refine h.keeps (P := fun t => Sound b t ∧ t.written = s.written) ⟨hs, rfl⟩ ?_ ?_
  · intro t c hpost hc _
    obtain ⟨ht, hwritten⟩ := hpost
    exact ⟨ht.complete hnodup hc, hwritten⟩
  · intro t a v _ hmem
    exact absurd hmem (has a v)

theorem awaited_of_reads (hnodup : b.registers.Nodup) {n : Nat} (h : Follows b s as s')
    (hs : Awaited b n s) (has : StoresNothing as) : Awaited b n s' := by
  refine h.keeps hs ?_ ?_
  · intro t c ht hc _
    exact ht.complete hnodup hc
  · intro t a v _ hmem
    exact absurd hmem (has a v)

theorem storesNothing_zeroReads (n : Nat) : StoresNothing (b.zeroReads n) := by
  intro a v hmem
  cases (List.mem_replicate.1 hmem).2

theorem storesNothing_poll (n : Nat) (v : UInt32) : StoresNothing (b.poll n v) := by
  intro a w hmem
  rcases List.mem_append.1 hmem with hmem | hmem
  · exact storesNothing_zeroReads n a w hmem
  · cases List.mem_singleton.1 hmem

theorem storesNothing_failed (op : Operation) (f : NetworkFault) : StoresNothing [op.failed f] := by
  intro a v hmem
  cases op <;> cases List.mem_singleton.1 hmem

theorem storesNothing_readBack (outcomes : Fin wordCount → Except NetworkFault UInt32) :
    StoresNothing (b.readBack outcomes) := by
  intro a v hmem
  obtain ⟨i, -, hi⟩ := List.mem_map.1 hmem
  cases hi

/-- After a poll no command runs. -/
theorem quiet_of_poll (hnodup : b.registers.Nodup) {n : Nat} {v : UInt32}
    (h : Follows b s (b.poll n v) s') (hs : Sound b s) (hv : v ≠ 0) :
    s'.pending = [] ∧ s'.written = s.written := by
  obtain ⟨t, h₁, hread, h₂⟩ := h.lastRead
  obtain ⟨hsound, hwritten⟩ := h₁.sound_of_reads hnodup hs (storesNothing_zeroReads n)
  have hquiet : t.pending = [] := hsound.quiet (hread ▸ hv)
  have hsame : s' = t := h₂.unchanged hquiet fun _ _ => List.not_mem_nil
  rw [hsame]
  exact ⟨hquiet, hwritten⟩

/-- After a poll the command that was awaited is answered, and the poll shows
with what. -/
theorem answered_of_poll (hnodup : b.registers.Nodup) {n k : Nat} {raw : UInt32}
    (h : Follows b s (b.poll k raw) s') (hs : Awaited b n s) (hraw : raw ≠ 0) :
    Awaited b n s' ∧ Answered b n s' ∧ s'.registers b.response = raw := by
  obtain ⟨t, h₁, hread, h₂⟩ := h.lastRead
  have hawaited : Awaited b n t := h₁.awaited_of_reads hnodup hs (storesNothing_zeroReads k)
  have hanswered : Answered b n t := hawaited.answered (hread ▸ hraw)
  have hsame : s' = t := h₂.unchanged hanswered.1 fun _ _ => List.not_mem_nil
  rw [hsame]
  exact ⟨hawaited, hanswered, hread⟩

/-- Storing words elsewhere than in the command register starts nothing, and
shows in the response register only if it is one of the places. -/
theorem quiet_of_stored {ws : List (UInt32 × UInt32)} (h : Follows b s (ws.map Access.stored) s')
    (hquiet : s.pending = []) (hws : b.command ∉ ws.map Prod.fst) :
    s'.pending = [] ∧ s'.written = s.written ∧
      (b.response ∉ ws.map Prod.fst → s'.registers b.response = s.registers b.response) := by
  refine h.keeps (P := fun t => t.pending = [] ∧ t.written = s.written ∧
    (b.response ∉ ws.map Prod.fst → t.registers b.response = s.registers b.response))
    ⟨hquiet, rfl, fun _ => rfl⟩ ?_ ?_
  · intro t c hpost hc
    obtain ⟨ht, -⟩ := hpost
    rw [ht] at hc
    cases hc
  · intro t a v hpost hmem
    obtain ⟨ht, hwritten, hresponse⟩ := hpost
    obtain ⟨p, hp, heq⟩ := List.mem_map.1 hmem
    have ha : a ∈ ws.map Prod.fst := (Access.write.inj heq).1 ▸ List.mem_map_of_mem hp
    have hne : a ≠ b.command := fun heq => hws (heq ▸ ha)
    simp only [store, if_neg hne]
    refine ⟨ht, hwritten, fun hnot => ?_⟩
    have hne' : b.response ≠ a := fun heq => hnot (heq ▸ ha)
    rw [Function.update_of_ne hne', hresponse hnot]

/-- Storing a whole request starts a command, and leaves the response register
at zero until the command is completed. -/
theorem awaited_of_request (hnodup : b.registers.Nodup) {opcode : UInt32} {sent : Arguments}
    (h : Follows b s ((b.request opcode sent).map Access.stored) s') (hquiet : s.pending = []) :
    Awaited b s.written s' := by
  let front := Arguments.positions.map fun i => (b.argument i.val, sent.get i)
  have hfront : front.map Prod.fst = b.argumentRegisters := by
    simp [front, RegisterBlock.argumentRegisters, Function.comp_def]
  have hcommand := (List.nodup_cons.1 hnodup).1
  have hresponse := (List.nodup_cons.1 (List.nodup_cons.1 hnodup).2).1
  -- the clear, then the arguments, then the opcode
  rw [show (b.request opcode sent).map Access.stored =
    ([.write b.response 0 (.ok ())] ++ front.map Access.stored) ++
      [.write b.command opcode (.ok ())] by simp [RegisterBlock.request, Access.stored, front]] at h
  obtain ⟨u, h, hlast⟩ := h.lastWrite
  obtain ⟨t, hclear, hargs⟩ := h.split
  have ht : t.pending = [] ∧ t.written = s.written ∧ t.registers b.response = 0 := by
    obtain ⟨t₀, h₀, h₁⟩ : ∃ t₀, Follows b s [] t₀ ∧ Follows b (t₀.store b b.response 0) [] t :=
      lastWrite hclear
    have hsame : t₀ = s := h₀.unchanged hquiet fun _ _ => List.not_mem_nil
    subst hsame
    have hne : b.response ≠ b.command := (RegisterBlock.command_ne_response hnodup).symm
    have hstored : (t₀.store b b.response 0).pending = [] := by
      simp only [store, if_neg hne]
      exact hquiet
    rw [h₁.unchanged hstored fun _ _ => List.not_mem_nil]
    refine ⟨hstored, ?_, Function.update_self ..⟩
    simp only [store, if_neg hne]
  obtain ⟨hu, hwritten, hzero⟩ := hargs.quiet_of_stored ht.1 (by
    rw [hfront]
    exact fun hmem => hcommand (List.mem_cons_of_mem _ hmem))
  have hzero : u.registers b.response = 0 := by
    rw [hzero (by rw [hfront]; exact hresponse), ht.2.2]
  -- from here on the firmware may answer at any moment
  refine hlast.awaited_of_reads hnodup ⟨?_, .inl ⟨?_, ?_⟩⟩ fun _ _ => List.not_mem_nil
  · simp only [store, if_true, hwritten, ht.2.1]
  · simp only [store, if_true, hu, hwritten, ht.2.1, List.nil_append]
  · show Function.update u.registers b.command opcode b.response = 0
    rw [Function.update_of_ne (RegisterBlock.command_ne_response hnodup).symm, hzero]

/-! ## §4. One transaction. -/

/-- Behind a poll and a whole request the own command is awaited. -/
theorem awaited_of_start (hnodup : b.registers.Nodup) {opcode : UInt32} {sent : Arguments} {n : Nat}
    {v : UInt32}
    (h : Follows b s (b.poll n v ++ (b.request opcode sent).map Access.stored ++ as) s')
    (hs : Sound b s) (hv : v ≠ 0) : ∃ t, Awaited b s.written t ∧ Follows b t as s' := by
  obtain ⟨u, h, hrest⟩ := h.split
  obtain ⟨t, hpoll, hrequest⟩ := h.split
  obtain ⟨hquiet, hwritten⟩ := hpoll.quiet_of_poll hnodup hs hv
  exact ⟨u, hwritten ▸ hrequest.awaited_of_request hnodup hquiet, hrest⟩

variable {opcode : UInt32} {sent : Arguments} {budget : Nat} {r : Except Failure Arguments}

/-- A transaction keeps the invariant, however it ends. -/
theorem sound (hnodup : b.registers.Nodup) (hcourse : Course b opcode sent budget as r)
    (h : Follows b s as s') (hs : Sound b s) : Sound b s' := by
  -- first wherever the transaction may stop, then for what it does there
  have hdue : ∀ {done op t}, Due b opcode sent done op → Follows b s done t → Sound b t := by
    intro done op t hdue h
    cases hdue with
    | gate n => exact (h.sound_of_reads hnodup hs (storesNothing_zeroReads n)).1
    | request hv hsplit =>
      obtain ⟨u, hpoll, hstored⟩ := h.split
      have hquiet := (hpoll.quiet_of_poll hnodup hs hv).1
      have hfront := RegisterBlock.command_not_mem_of_split hnodup hsplit
      exact .inl (hstored.quiet_of_stored hquiet hfront).1
    | completion k hv =>
      obtain ⟨u, hawaited, hrest⟩ := h.awaited_of_start hnodup hs hv
      exact (hrest.awaited_of_reads hnodup hawaited (storesNothing_zeroReads k)).sound
  cases hcourse with
  | @faulted done op f hd =>
    obtain ⟨t, h₁, h₂⟩ := h.split
    exact (h₂.sound_of_reads hnodup (hdue hd h₁) (storesNothing_failed op f)).1
  | exhausted hd => exact hdue hd h
  | @rejected n k v raw hv hraw =>
    obtain ⟨t, hawaited, hrest⟩ := h.awaited_of_start hnodup hs hv
    exact (hrest.awaited_of_reads hnodup hawaited (storesNothing_poll k raw)).sound
  | @answered n k v hv outcomes =>
    rw [List.append_assoc] at h
    obtain ⟨t, hawaited, hrest⟩ := h.awaited_of_start hnodup hs hv
    obtain ⟨u, hpoll, hback⟩ := hrest.split
    have hawaited := hpoll.awaited_of_reads hnodup hawaited (storesNothing_poll k _)
    exact (hback.awaited_of_reads hnodup hawaited (storesNothing_readBack outcomes)).sound

/-- Before each write of a transaction no command runs. -/
theorem quiet (hnodup : b.registers.Nodup) {before after : List Access} {a w : UInt32}
    {o : Except NetworkFault Unit} {mid : Counterpart}
    (hcourse : Course b opcode sent budget as r) (hsplit : as = before ++ .write a w o :: after)
    (h : Follows b s before mid) (hs : Sound b s) : mid.pending = [] := by
  cases hcourse.due_of_write hsplit with
  | request hv hrequest =>
    obtain ⟨u, hpoll, hstored⟩ := h.split
    have hquiet := (hpoll.quiet_of_poll hnodup hs hv).1
    have hfront := RegisterBlock.command_not_mem_of_split hnodup hrequest
    exact (hstored.quiet_of_stored hquiet hfront).1

/-- While no command runs and nothing is stored, every read shows the registers
as they are. -/
theorem read_of_quiet {a v : UInt32} (h : Follows b s as s') (hquiet : s.pending = [])
    (has : StoresNothing as) (hread : .read a (.ok v) ∈ as) : s.registers a = v := by
  obtain ⟨before, after, rfl⟩ := List.append_of_mem hread
  rw [← List.singleton_append, ← List.append_assoc] at h
  obtain ⟨mid, hfront, -⟩ := h.split
  obtain ⟨t, hbefore, hv, -⟩ := hfront.lastRead
  have hsame : t = s :=
    hbefore.unchanged hquiet fun a v hmem => has a v (List.mem_append_left _ hmem)
  rwa [hsame] at hv

end Follows

/-- The status that a result reports. -/
def reportedStatus : Except Failure Arguments → Option UInt32
  | .ok _ => some ResponseCode.ok
  | .error (.rejected status) => some status.raw
  | .error _ => none

namespace Follows

open Counterpart

variable {b : RegisterBlock} {s s' : Counterpart} {as : List Access}
  {opcode : UInt32} {sent : Arguments} {budget : Nat} {r : Except Failure Arguments}

/-- A status that a transaction reports is the one that its own command was
completed with, and so is every word that it read back. -/
theorem answered (hnodup : b.registers.Nodup) {raw : UInt32}
    (hcourse : Course b opcode sent budget as r) (h : Follows b s as s') (hs : Sound b s)
    (hr : reportedStatus r = some raw) :
    s'.written = s.written + 1 ∧ ∃ c ∈ s'.completions, c.command = s.written ∧ c.status = raw ∧
      ∀ words, r = .ok words → ∀ i v, .read (b.argument i.val) (.ok v) ∈ as →
        words.get i = c.words.get i := by
  cases hcourse with
  | faulted => cases hr
  | exhausted => cases hr
  | @rejected n k v raw' hv hraw =>
    have heq : raw' = raw := by
      rw [← Status.raw_ofRaw raw']
      exact Option.some.inj hr
    subst heq
    obtain ⟨t, hawaited, hpoll⟩ := h.awaited_of_start hnodup hs hv
    obtain ⟨hafter, ⟨-, c, hc, hcommand, hstatus, -⟩, hresponse⟩ :=
      hpoll.answered_of_poll hnodup hawaited hraw
    refine ⟨hafter.1, c, hc, hcommand, ?_, ?_⟩
    · rw [← hstatus, hresponse]
    · intro words hok
      cases hok
  | @answered n k v hv outcomes =>
    have heq : ResponseCode.ok = raw := Option.some.inj hr
    subst heq
    obtain ⟨u, hfront, hback⟩ := h.split
    obtain ⟨t, hawaited, hpoll⟩ := hfront.awaited_of_start hnodup hs hv
    obtain ⟨hafter, ⟨hquiet, c, hc, hcommand, hstatus, hwords⟩, hresponse⟩ :=
      hpoll.answered_of_poll hnodup hawaited (by decide)
    -- the answer is complete before the read-back begins, and nothing changes it
    have hsame : s' = u := hback.unchanged hquiet (storesNothing_readBack outcomes)
    subst hsame
    refine ⟨hafter.1, c, hc, hcommand, ?_, ?_⟩
    · rw [← hstatus, hresponse]
    · intro words hok i w hread
      cases hok
      obtain ⟨hmem, houtcome⟩ := RegisterBlock.mem_readBack_of_read hnodup hread
      rw [Arguments.received, Arguments.get_ofFn, houtcome, ← hwords i]
      exact (hback.read_of_quiet hquiet (storesNothing_readBack outcomes) hmem).symm

end Follows

/-! ## §5. Any sequence of transactions. -/

namespace Counterpart

/-- What transactions on a mailbox can lead to, one after the other, from an idle
mailbox.  The firmware may complete commands during each of them and in
between. -/
inductive Reachable (b : RegisterBlock) : Counterpart → Prop where
  | start {s : Counterpart} (hresponse : s.registers b.response ≠ 0) (hquiet : s.pending = [])
      (hfresh : s.completions = []) : Reachable b s
  | call {s s' : Counterpart} {m : Mailboxes} {channel : Channel} {opcode : UInt32}
      {sent : Arguments} {es : List Event} {r : Except Failure Arguments} {as : List Access}
      (hs : Reachable b s) (hb : m.registers? channel = some b)
      (hr : (m.execute channel opcode sent).run.Reaches es r) (has : Traffic m.window es as)
      (h : Follows b s as s') : Reachable b s'

/-- Commands are answered after they were written. -/
def Numbered (s : Counterpart) : Prop :=
  (∀ n ∈ s.pending, n < s.written) ∧ ∀ c ∈ s.completions, c.command < s.written

/-- Whatever is stored and completed, commands are answered after they were
written. -/
theorem Numbered.follows {b : RegisterBlock} {s s' : Counterpart} {as : List Access}
    (hs : Numbered s) (h : Follows b s as s') : Numbered s' := by
  refine h.keeps hs ?_ ?_
  · intro t c hpost hc _
    obtain ⟨hpending, hcompleted⟩ := hpost
    refine ⟨fun n hn => hpending n (List.mem_of_mem_erase hn), fun c' hc' => ?_⟩
    rcases List.mem_cons.1 hc' with rfl | hc'
    · exact hpending _ hc
    · exact hcompleted c' hc'
  · intro t a v hpost _
    obtain ⟨hpending, hcompleted⟩ := hpost
    by_cases ha : a = b.command
    · simp only [Numbered, store, if_pos ha]
      refine ⟨fun n hn => ?_, fun c hc => Nat.lt_succ_of_lt (hcompleted c hc)⟩
      rcases List.mem_append.1 hn with hn | hn
      · exact Nat.lt_succ_of_lt (hpending n hn)
      · rw [List.mem_singleton.1 hn]
        exact Nat.lt_succ_self _
    · simp only [Numbered, store, if_neg ha]
      exact ⟨hpending, hcompleted⟩

end Counterpart

/-- The accesses of a transaction, as far as the bridge can tell, are those of a
course. -/
theorem Traffic.course {m : Mailboxes} {channel : Channel} {b : RegisterBlock} {opcode : UInt32}
    {sent : Arguments} {es : List Event} {r : Except Failure Arguments} {as : List Access}
    (has : Traffic m.window es as) (hb : m.registers? channel = some b)
    (hr : (m.execute channel opcode sent).run.Reaches es r) :
    ∃ bs, as.map Access.plain = bs.map Access.plain ∧ Course b opcode sent m.budget bs r := by
  obtain ⟨bs, hbs, hcourse, -⟩ := conducts_execute hb opcode sent es r hr
  exact ⟨bs, has.plain_eq hbs, hcourse⟩

namespace Counterpart

/-- Between transactions a command runs only while the response register is
zero. -/
theorem Reachable.sound {b : RegisterBlock} {s : Counterpart} (h : Reachable b s) : Sound b s := by
  induction h with
  | start hresponse hquiet => exact .inl hquiet
  | call _ hb hr has h ih =>
    obtain ⟨bs, heq, hcourse⟩ := has.course hb hr
    exact (h.ofPlain heq).sound (Codename.nodup_registers hb) hcourse ih

theorem Reachable.numbered {b : RegisterBlock} {s : Counterpart} (h : Reachable b s) :
    Numbered s := by
  induction h with
  | start hresponse hquiet hfresh =>
    refine ⟨fun n hn => ?_, fun c hc => ?_⟩
    · rw [hquiet] at hn
      cases hn
    · rw [hfresh] at hc
      cases hc
  | call _ _ _ _ h ih => exact ih.follows h

end Counterpart

section

open Counterpart

/-- However commands and completions fall together, a transaction writes registers
only while no command runs, and a status that it reports is the one its own
command was completed with; so is each word that it read back. -/
theorem answer_is_own {m : Mailboxes} {channel : Channel} {b : RegisterBlock} {opcode : UInt32}
    {sent : Arguments} {es : List Event} {r : Except Failure Arguments} {as : List Access}
    {s s' : Counterpart} (hs : Reachable b s) (hb : m.registers? channel = some b)
    (hr : (m.execute channel opcode sent).run.Reaches es r) (has : Traffic m.window es as)
    (h : Follows b s as s') :
    (∀ before a w o after mid, as = before ++ .write a w o :: after →
      o = .ok () ∨ o = .error (.write a) → Follows b s before mid → mid.pending = []) ∧
    ∀ raw, reportedStatus r = some raw →
      s'.written = s.written + 1 ∧ (∀ c ∈ s.completions, c.command < s.written) ∧
      ∃ c ∈ s'.completions, c.command = s.written ∧ c.status = raw ∧
        ∀ words, r = .ok words → ∀ i v, .read (b.argument i.val) (.ok v) ∈ as →
          words.get i = c.words.get i := by
  have hnodup := Codename.nodup_registers hb
  obtain ⟨bs, heq, hcourse⟩ := has.course hb hr
  refine ⟨?_, ?_⟩
  · intro before a w o after mid hsplit hreached hbefore
    obtain ⟨before', x, after', hbs, hbefore', hx⟩ := Access.split_of_plain heq hsplit
    -- the index was set, and so the bridge saw that it was this write
    have hsame : x = .write a w o := Access.write_of_plain hreached hx
    subst hsame
    exact (hbefore.ofPlain hbefore').quiet hnodup hcourse hbs hs.sound
  · intro raw hraw
    obtain ⟨hwritten, c, hc, hcommand, hstatus, hwords⟩ :=
      (h.ofPlain heq).answered hnodup hcourse hs.sound hraw
    refine ⟨hwritten, hs.numbered.2, c, hc, hcommand, hstatus, ?_⟩
    intro words hok i v hread
    exact hwords words hok i v (Access.mem_of_plain heq hread rfl)

end

/-! ## §6. A command that is answered too late. -/

namespace Follows

theorem stored {b : RegisterBlock} (s : Counterpart) (ws : List (UInt32 × UInt32)) :
    Follows b s (ws.map Access.stored) (ws.foldl (fun s p => s.store b p.1 p.2) s) := by
  induction ws generalizing s with
  | nil => exact .nil s
  | cons p rest ih => exact .access (.write p.1 p.2) (ih _)

theorem readBack {b : RegisterBlock} (s : Counterpart) :
    Follows b s (b.readBack fun i => .ok (s.registers (b.argument i.val))) s := by
  unfold RegisterBlock.readBack
  induction Arguments.positions with
  | nil => exact .nil s
  | cons i rest ih => exact .access (.read _) ih

end Follows

namespace Overdue

/-- The registers of a mailbox. -/
def block : RegisterBlock := ⟨0x03B10524, 0x03B10570, 0x03B10A40⟩

/-- The words of a request. -/
def sent : Arguments := .first 1

/-- What the request stores. -/
def stores : List (UInt32 × UInt32) := block.request 2 sent

/-- Where the driver gives up: the request is stored and the command runs. -/
def abandoned : Counterpart :=
  stores.foldl (fun s p => s.store block p.1 p.2) ⟨fun _ => 1, 0, [], []⟩

/-- The command is completed after all, and not with success. -/
def overdue : Counterpart := abandoned.complete block ⟨0, 2, .zero⟩

/-- Then another request is stored and its command completed, with success. -/
def answered : Counterpart :=
  (stores.foldl (fun s p => s.store block p.1 p.2) overdue).complete block ⟨1, 1, .first 7⟩

/-- What is read back then. -/
def outcomes (i : Fin wordCount) : Except NetworkFault UInt32 :=
  .ok (answered.registers (block.argument i.val))

/-- A transaction that can read the response register only once gives up. -/
theorem reachable_abandoned : Counterpart.Reachable block abandoned := by
  let as := block.poll 0 1 ++ stores.map Access.stored
  have hfollows : Follows block ⟨fun _ => 1, 0, [], []⟩ as abandoned :=
    .access (.read _) (.stored _ _)
  have hreach : (Mailboxes.execute ⟨.matisse, 1, .standard⟩ .rsmu 2 sent).run.Reaches
      (⟨.note (.requestSent .rsmu 2 sent), ()⟩ :: as.flatMap (Access.events .standard))
      (.error .timeout) := by
    repeat' constructor
  exact .call (.start (by decide) rfl rfl) rfl hreach (.note _ (.ofEvents (by decide))) hfollows

/-- The next one begins while the command of the first still runs, and reports
the answer to its own. -/
theorem answer_is_own_abandoned :
    abandoned.pending = [0] ∧ ∃ c ∈ answered.completions,
      c.command = abandoned.written ∧ c.status = ResponseCode.ok ∧
        ∀ i, (sent.received outcomes).get i = c.words.get i := by
  let as := block.poll 1 2 ++ stores.map Access.stored ++ block.poll 0 1 ++ block.readBack outcomes
  have hfollows : Follows block abandoned as answered := by
    have hgate : Follows block abandoned (block.poll 1 2) overdue := by
      refine .access (.read _) ?_
      refine .complete ⟨0, 2, .zero⟩ (by decide) (by decide) ?_
      exact .access (.read _) (.nil _)
    have hpoll : Follows block (stores.foldl (fun s p => s.store block p.1 p.2) overdue)
        (block.poll 0 1) answered := by
      refine .complete ⟨1, 1, .first 7⟩ (by decide) (by decide) ?_
      exact .access (.read _) (.nil _)
    exact ((hgate.append (.stored _ _)).append hpoll).append (.readBack _)
  have hreach : (Mailboxes.execute ⟨.matisse, 3, .standard⟩ .rsmu 2 sent).run.Reaches
      (⟨.note (.requestSent .rsmu 2 sent), ()⟩ :: as.flatMap (Access.events .standard) ++
        [⟨.note (.requestAnswered .rsmu 2 (sent.received outcomes)), ()⟩])
      (.ok (sent.received outcomes)) := by
    repeat' constructor
  have has : Traffic .standard
      (⟨.note (.requestSent .rsmu 2 sent), ()⟩ :: as.flatMap (Access.events .standard) ++
        [⟨.note (.requestAnswered .rsmu 2 (sent.received outcomes)), ()⟩]) as := by
    have hnone : ∀ x ∈ as, x.fault? = none := by decide
    have := (Traffic.note (.requestSent .rsmu 2 sent) (.ofEvents hnone)).append
      (.ofNote (w := .standard) (.requestAnswered .rsmu 2 (sent.received outcomes)))
    rwa [List.append_nil] at this
  obtain ⟨-, hanswer⟩ := answer_is_own reachable_abandoned rfl hreach has hfollows
  obtain ⟨-, -, c, hc, hcommand, hstatus, hwords⟩ := hanswer ResponseCode.ok rfl
  refine ⟨by decide, c, hc, hcommand, hstatus, fun i => ?_⟩
  refine hwords _ rfl i (answered.registers (block.argument i.val)) ?_
  exact List.mem_append_right _ (List.mem_map.2 ⟨i, Arguments.mem_positions i, rfl⟩)

end Overdue
end ManagementUnit
