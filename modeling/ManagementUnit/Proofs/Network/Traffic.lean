/-
  ManagementUnit.Proofs.Network.Traffic
  ────────────────────────────────
  The network accesses behind the events of a program.

  A platform sees configuration accesses; the driver thinks in words of the
  management network.  `Traffic w es as` reads the one as the other: the events
  `es` are the accesses `as`, made one after the other through the window `w`,
  with notes in between and nothing else.

  `p.Conducts w post` is the judgement that the rest of the development works
  with: however the platform answers, the events of `p` are network accesses
  which, together with the answer of `p`, satisfy `post`.

  Main results:
    * `Traffic.append`, `Traffic.split` — accesses in a row are events in a row, and
      the other way round.
    * `Traffic.plain_eq`        — the events determine the accesses, but for the
      direction of one whose address could not be set.
    * `Conducts.bind`           — the judgement follows the program.
    * `conducts_read`, `conducts_write` — what the two network accesses do.
-/
import ManagementUnit.Platform

namespace ManagementUnit

/-! ## §1. Accesses. -/

/-- The configuration accesses. -/
def Request.isAccess : Request → Bool
  | readBridge _ | writeBridge .. => true
  | _ => false

/-- One access to a word of the network, and how it ended. -/
inductive Access where
  | read (address : UInt32) (outcome : Except NetworkFault UInt32)
  | write (address value : UInt32) (outcome : Except NetworkFault Unit)

namespace Access

/-- What the bridge sees of an access: the address on the index register and,
if that went through, one access to the data register. -/
inductive Seen (w : Window) : Access → List Event → Prop where
  | readUnselected (a : UInt32) (f : BridgeFault) :
      Seen w (.read a (.error (.select a))) [⟨.writeBridge w.index a, .error f⟩]
  | readFault (a : UInt32) (f : BridgeFault) :
      Seen w (.read a (.error (.read a)))
        [⟨.writeBridge w.index a, .ok ()⟩, ⟨.readBridge w.data, .error f⟩]
  | read (a v : UInt32) :
      Seen w (.read a (.ok v)) [⟨.writeBridge w.index a, .ok ()⟩, ⟨.readBridge w.data, .ok v⟩]
  | writeUnselected (a v : UInt32) (f : BridgeFault) :
      Seen w (.write a v (.error (.select a))) [⟨.writeBridge w.index a, .error f⟩]
  | writeFault (a v : UInt32) (f : BridgeFault) :
      Seen w (.write a v (.error (.write a)))
        [⟨.writeBridge w.index a, .ok ()⟩, ⟨.writeBridge w.data v, .error f⟩]
  | write (a v : UInt32) :
      Seen w (.write a v (.ok ()))
        [⟨.writeBridge w.index a, .ok ()⟩, ⟨.writeBridge w.data v, .ok ()⟩]

/-- The events of an access that goes through. -/
def events (w : Window) : Access → List Event
  | read a (.ok v) => [⟨.writeBridge w.index a, .ok ()⟩, ⟨.readBridge w.data, .ok v⟩]
  | write a v (.ok ()) => [⟨.writeBridge w.index a, .ok ()⟩, ⟨.writeBridge w.data v, .ok ()⟩]
  | read _ (.error _) | write _ _ (.error _) => []

/-- The network address of an access. -/
def address : Access → UInt32
  | read a _ | write a _ _ => a

/-- The fault that an access ended in. -/
def fault? : Access → Option NetworkFault
  | read _ (.error f) | write _ _ (.error f) => some f
  | read _ (.ok _) | write _ _ (.ok _) => none

/-- An access without what the bridge cannot tell: if the address could not be
set, there is no seeing whether a read or a write was meant. -/
def plain : Access → Access
  | write a _ (.error (.select b)) => read a (.error (.select b))
  | x => x

/-- The fault of an access is among what the bridge can tell. -/
theorem fault?_plain (x : Access) : x.plain.fault? = x.fault? := by
  unfold plain
  split <;> rfl

/-- The bridge can tell everything about an access that went through. -/
theorem plain_of_fault?_eq_none {x : Access} (h : x.fault? = none) : x.plain = x := by
  unfold plain
  split
  · cases h
  · rfl

theorem map_plain {as : List Access} (h : ∀ x ∈ as, x.fault? = none) : as.map plain = as :=
  (List.map_congr_left fun x hx => plain_of_fault?_eq_none (h x hx)).trans (List.map_id' as)

/-- So it takes no other one for it. -/
theorem eq_of_plain {x y : Access} (h : x.plain = y.plain) (hx : x.fault? = none) : x = y := by
  have hy : y.fault? = none := by rw [← fault?_plain, ← h, fault?_plain, hx]
  rw [← plain_of_fault?_eq_none hx, h, plain_of_fault?_eq_none hy]

/-- Nor does it miss one in a row of accesses. -/
theorem mem_of_plain {as bs : List Access} (h : as.map plain = bs.map plain) {x : Access}
    (hmem : x ∈ as) (hx : x.fault? = none) : x ∈ bs := by
  have hplain := List.mem_map_of_mem (f := plain) hmem
  rw [h] at hplain
  obtain ⟨y, hy, heq⟩ := List.mem_map.1 hplain
  rwa [eq_of_plain heq.symm hx]

/-- An access in a row of accesses has its place in any other row that the bridge
takes for the same. -/
theorem split_of_plain {as bs before after : List Access} {x : Access}
    (h : as.map plain = bs.map plain) (hsplit : as = before ++ x :: after) :
    ∃ before' y after', bs = before' ++ y :: after' ∧
      before.map plain = before'.map plain ∧ x.plain = y.plain := by
  rw [hsplit, List.map_append, List.map_cons, eq_comm, List.map_eq_append_iff] at h
  obtain ⟨before', rest, hbs, hbefore, hrest⟩ := h
  obtain ⟨y, after', rfl, hy, -⟩ := List.map_eq_cons_iff.1 hrest
  exact ⟨before', y, after', hbs, hbefore.symm, hy.symm⟩

/-- The bridge takes a write whose address was set for no other access. -/
theorem write_of_plain {a v : UInt32} {outcome : Except NetworkFault Unit} {y : Access}
    (houtcome : outcome = .ok () ∨ outcome = .error (.write a))
    (h : (write a v outcome).plain = y.plain) : y = write a v outcome := by
  have hplain : (write a v outcome).plain = write a v outcome := by
    rcases houtcome with rfl | rfl <;> rfl
  rw [hplain] at h
  unfold plain at h
  split at h
  · cases h
  · exact h.symm

end Access

/-! ## §2. Events as accesses. -/

/-- `Traffic w es as`: the events `es` are the accesses `as` through the window
`w`, with notes in between. -/
inductive Traffic (w : Window) : List Event → List Access → Prop where
  | nil : Traffic w [] []
  | note (d : Diagnostic) {es : List Event} {as : List Access} :
      Traffic w es as → Traffic w (⟨.note d, ()⟩ :: es) as
  | access {x : Access} {seen es : List Event} {as : List Access} :
      x.Seen w seen → Traffic w es as → Traffic w (seen ++ es) (x :: as)

namespace Traffic

variable {w : Window} {es fs : List Event} {as bs : List Access}

theorem append (h : Traffic w es as) (h' : Traffic w fs bs) : Traffic w (es ++ fs) (as ++ bs) := by
  induction h with
  | nil => exact h'
  | note d _ ih => exact .note d ih
  | access hx _ ih =>
    rw [List.append_assoc]
    exact .access hx ih

/-- Accesses in a row are seen as events in a row. -/
theorem split (h : Traffic w es (as ++ bs)) :
    ∃ fs gs, es = fs ++ gs ∧ Traffic w fs as ∧ Traffic w gs bs := by
  generalize hall : as ++ bs = all at h
  induction h generalizing as with
  | nil =>
    obtain ⟨rfl, rfl⟩ := List.append_eq_nil_iff.1 hall
    exact ⟨[], [], rfl, .nil, .nil⟩
  | note d _ ih =>
    obtain ⟨fs, gs, rfl, hfs, hgs⟩ := ih hall
    exact ⟨_ :: fs, gs, rfl, .note d hfs, hgs⟩
  | @access x seen es xs hx hrest ih =>
    cases as with
    | nil =>
      rw [List.nil_append] at hall
      subst hall
      exact ⟨[], seen ++ es, rfl, .nil, .access hx hrest⟩
    | cons y as =>
      obtain ⟨rfl, htail⟩ := List.cons_eq_cons.1 hall
      obtain ⟨fs, gs, rfl, hfs, hgs⟩ := ih htail
      exact ⟨seen ++ fs, gs, (List.append_assoc ..).symm, .access hx hfs, hgs⟩

/-- Accesses that go through, one after the other. -/
theorem ofEvents (h : ∀ x ∈ as, x.fault? = none) : Traffic w (as.flatMap (Access.events w)) as := by
  induction as with
  | nil => exact .nil
  | cons x as ih =>
    have hx := h x List.mem_cons_self
    have hrest := ih fun y hy => h y (List.mem_cons_of_mem _ hy)
    refine .access ?_ hrest
    cases x with
    | read a outcome =>
      cases outcome with
      | error => cases hx
      | ok v => exact .read a v
    | write a v outcome =>
      cases outcome with
      | error => cases hx
      | ok _ => exact .write a v

theorem single {x : Access} {seen : List Event} (h : x.Seen w seen) : Traffic w seen [x] := by
  have := Traffic.access h .nil
  rwa [List.append_nil] at this

theorem ofNote (d : Diagnostic) : Traffic w [⟨.note d, ()⟩] [] := .note d .nil

/-- The events determine the accesses, up to what the bridge cannot tell. -/
theorem plain_eq (h : Traffic w es as) (h' : Traffic w es bs) :
    as.map Access.plain = bs.map Access.plain := by
  induction h generalizing bs with
  | nil =>
    generalize hes : ([] : List Event) = es at h'
    cases h' with
    | nil => rfl
    | note => cases hes
    | access hx => cases hx <;> cases hes
  | note d _ ih =>
    generalize hes : _ :: _ = es at h'
    cases h' with
    | nil => cases hes
    | note d' h' =>
      cases hes
      exact ih h'
    | access hx => cases hx <;> cases hes
  | @access x seen es as hx _ ih =>
    generalize hes : seen ++ es = fs at h'
    cases h' with
    | nil => cases hx <;> cases hes
    | note => cases hx <;> cases hes
    | access hy h' =>
      -- what was seen fixes the kind of access, except behind an index that was not set
      cases hx <;> cases hy <;> cases hes <;>
        simp only [List.map_cons, Access.plain, ih h']

/-- Accesses that went through are the only ones the events can be. -/
theorem eq_of_faultless (h : Traffic w es as) (h' : Traffic w es bs)
    (hbs : ∀ x ∈ bs, x.fault? = none) : as = bs := by
  have hplain := h.plain_eq h'
  have has : ∀ x ∈ as, x.fault? = none := by
    intro x hx
    have hmem := List.mem_map_of_mem (f := Access.plain) hx
    rw [hplain] at hmem
    obtain ⟨y, hy, heq⟩ := List.mem_map.1 hmem
    rw [← Access.fault?_plain, ← heq, Access.fault?_plain, hbs y hy]
  rwa [Access.map_plain has, Access.map_plain hbs] at hplain

end Traffic

/-! ## §3. Programs that only access the network. -/

namespace Program

variable {w : Window} {α β : Type}

/-- However the platform answers, the events of `p` are network accesses through
`w` that satisfy `post` together with the answer. -/
def Conducts (w : Window) (p : Program α) (post : List Access → α → Prop) : Prop :=
  ∀ es a, p.Reaches es a → ∃ as, Traffic w es as ∧ post as a

theorem Conducts.mono {p : Program α} {post post' : List Access → α → Prop}
    (h : p.Conducts w post) (hpost : ∀ as a, post as a → post' as a) : p.Conducts w post' := by
  intro es a hes
  obtain ⟨as, ht, ha⟩ := h es a hes
  exact ⟨as, ht, hpost as a ha⟩

theorem conducts_pure {a : α} {post : List Access → α → Prop} (h : post [] a) :
    (pure a : Program α).Conducts w post := by
  intro es b hes
  obtain ⟨rfl, rfl⟩ := reaches_done_iff.1 hes
  exact ⟨[], .nil, h⟩

theorem conducts_note (d : Diagnostic) : (note d).Conducts w fun as _ => as = [] := by
  intro es a hes
  cases hes with
  | ask hes =>
    cases hes
    exact ⟨[], .ofNote d, rfl⟩

/-- Two programs in a row make their accesses in a row. -/
theorem Conducts.bind {p : Program α} {next : α → Program β} {mid : List Access → α → Prop}
    {post : List Access → β → Prop} (hp : p.Conducts w mid)
    (hn : ∀ as a, mid as a → (next a).Conducts w fun bs b => post (as ++ bs) b) :
    (p >>= next).Conducts w post := by
  intro es b hes
  obtain ⟨fs, gs, a, rfl, hf, hg⟩ := reaches_bind_iff.1 hes
  obtain ⟨as, hta, ha⟩ := hp fs a hf
  obtain ⟨bs, htb, hb⟩ := hn as a ha gs b hg
  exact ⟨as ++ bs, hta.append htb, hb⟩

/-- A note in front of a program changes nothing. -/
theorem Conducts.afterNote {d : Diagnostic} {p : Program α} {post : List Access → α → Prop}
    (h : p.Conducts w post) : (note d >>= fun _ => p).Conducts w post := by
  refine (conducts_note d).bind ?_
  intro _ _ heq
  subst heq
  exact h

/-- Reading a word is one read, and the answer is how it ended. -/
theorem conducts_read (a : UInt32) :
    (Network.read w a).Conducts w fun as r => as = [.read a r] := by
  intro es r hes
  cases hes with
  | @ask _ _ selected _ _ hes =>
    cases selected with
    | error f =>
      cases hes with
      | ask hes =>
        cases hes
        exact ⟨_, (Traffic.single (.readUnselected a f)).append (.ofNote _), rfl⟩
    | ok _ =>
      cases hes with
      | @ask _ _ reply _ _ hes =>
        cases reply with
        | error f =>
          cases hes with
          | ask hes =>
            cases hes
            exact ⟨_, (Traffic.single (.readFault a f)).append (.ofNote _), rfl⟩
        | ok v =>
          cases hes
          exact ⟨_, Traffic.single (.read a v), rfl⟩

/-- Writing a word is one write, and the answer is how it ended. -/
theorem conducts_write (a v : UInt32) :
    (Network.write w a v).Conducts w fun as r => as = [.write a v r] := by
  intro es r hes
  cases hes with
  | @ask _ _ selected _ _ hes =>
    cases selected with
    | error f =>
      cases hes with
      | ask hes =>
        cases hes
        exact ⟨_, (Traffic.single (.writeUnselected a v f)).append (.ofNote _), rfl⟩
    | ok _ =>
      cases hes with
      | @ask _ _ reply _ _ hes =>
        cases reply with
        | error f =>
          cases hes with
          | ask hes =>
            cases hes
            exact ⟨_, (Traffic.single (.writeFault a v f)).append (.ofNote _), rfl⟩
        | ok _ =>
          cases hes
          exact ⟨_, Traffic.single (.write a v), rfl⟩

end Program
end ManagementUnit
