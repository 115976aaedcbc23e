/-
  ManagementUnit.Proofs.Mailbox.Inquiry
  ────────────────────────────────
  What asking the firmware leaves alone.

  Asking makes configuration accesses and takes note of them, and nothing else:
  no memory is mapped or loaded and no clock is read, and the notes are about the
  question and not about the table.  An attempt that only asks also fails only in
  ways that firmware and bridge can make it fail.  So where in a journal the table
  is found, transferred, mapped or given back is plain, however often the firmware
  is asked in between.

  Main results:
    * `asks_execute`          — a transaction only asks.
    * `reaches_tableGeometry` — so does finding the table, which takes note of the
      geometry at the end and only if it succeeds.
-/
import ManagementUnit.Proofs.Table.Provenance

namespace ManagementUnit

open Program (request note reaches_bind_iff reaches_done_iff)

/-! ## §1. What is part of asking. -/

/-- Whether something is noted about a question to the firmware. -/
def Diagnostic.isInquiry : Diagnostic → Bool
  | networkFault _ | requestSent .. | requestRejected .. | wordUnreadable .. | requestAnswered ..
  | locationFailed _ | formatFailed _ | formatUnknown _ => true
  | _ => false

/-- What happens while the firmware is asked. -/
inductive Event.Inquiry : Event → Prop where
  | read (offset : UInt16) (reply : Except BridgeFault UInt32) :
      Inquiry ⟨.readBridge offset, reply⟩
  | write (offset : UInt16) (value : UInt32) (reply : Except BridgeFault Unit) :
      Inquiry ⟨.writeBridge offset value, reply⟩
  | note {d : Diagnostic} (h : d.isInquiry = true) : Inquiry ⟨.note d, ()⟩

/-- Whether firmware or bridge, or the lack of a command, can make an attempt fail
so. -/
def Failure.isInquiry : Failure → Bool
  | bus _ | timeout | rejected _ | unsupported => true
  | shortBuffer _ | unmapped _ | unidentified _ => false

namespace Program

variable {α β : Type}

/-- However the platform answers, the program only asks the firmware, and its
answer satisfies `post`. -/
def Inquires (p : Program α) (post : α → Prop) : Prop :=
  ∀ es a, p.Reaches es a → (∀ e ∈ es, e.Inquiry) ∧ post a

variable {p : Program α} {post : α → Prop}

theorem inquires_done {a : α} (h : post a) : (done a).Inquires post := by
  intro es b hes
  obtain ⟨rfl, rfl⟩ := reaches_done_iff.1 hes
  refine ⟨?_, h⟩
  intro e he
  cases he

theorem Inquires.bind {f : α → Program β} {post' : β → Prop} (hp : p.Inquires post)
    (hf : ∀ a, post a → (f a).Inquires post') : (p >>= f).Inquires post' := by
  intro es b hes
  obtain ⟨fs, gs, a, rfl, hfs, hgs⟩ := reaches_bind_iff.1 hes
  obtain ⟨hfront, ha⟩ := hp fs a hfs
  obtain ⟨hback, hb⟩ := hf a ha gs b hgs
  refine ⟨?_, hb⟩
  intro e he
  rcases List.mem_append.1 he with he | he
  · exact hfront e he
  · exact hback e he

theorem inquires_request {r : Request} (hr : ∀ reply, Event.Inquiry ⟨r, reply⟩) :
    (request r).Inquires fun _ => True := by
  intro es a hes
  cases hes with
  | ask hdone =>
    cases hdone
    refine ⟨?_, trivial⟩
    intro e he
    rw [List.mem_singleton.1 he]
    exact hr a

theorem inquires_note {d : Diagnostic} (hd : d.isInquiry = true) :
    (note d).Inquires fun _ => True := by
  refine inquires_request ?_
  intro reply
  exact .note hd

end Program

open Program (Inquires inquires_done inquires_request inquires_note)

/-! ## §2. Network accesses. -/

theorem inquires_refuse {α : Type} (fault : NetworkFault) :
    (Network.refuse fault : Program (Except NetworkFault α)).Inquires fun _ => True := by
  refine (inquires_note rfl).bind ?_
  intro _ _
  exact inquires_done trivial

theorem inquires_read (w : Window) (a : UInt32) : (Network.read w a).Inquires fun _ => True := by
  refine (inquires_request fun reply => .write w.index a reply).bind ?_
  intro selected _
  cases selected with
  | error _ => exact inquires_refuse _
  | ok _ =>
    refine (inquires_request fun reply => .read w.data reply).bind ?_
    intro value _
    cases value with
    | error _ => exact inquires_refuse _
    | ok _ => exact inquires_done trivial

theorem inquires_write (w : Window) (a v : UInt32) :
    (Network.write w a v).Inquires fun _ => True := by
  refine (inquires_request fun reply => .write w.index a reply).bind ?_
  intro selected _
  cases selected with
  | error _ => exact inquires_refuse _
  | ok _ =>
    refine (inquires_request fun reply => .write w.data v reply).bind ?_
    intro stored _
    cases stored with
    | error _ => exact inquires_refuse _
    | ok _ => exact inquires_done trivial

/-! ## §3. Attempts. -/

namespace Attempt

variable {α β : Type} {x : Attempt α}

/-- The attempt only asks the firmware, and fails only the way asking can. -/
def Asks (x : Attempt α) : Prop :=
  x.run.Inquires fun r => ∀ f, r = .error f → f.isInquiry = true

namespace Asks

theorem pure (a : α) : Asks (pure a) := by
  refine inquires_done ?_
  intro f hf
  cases hf

theorem fail {f : Failure} (hf : f.isInquiry = true) : (Attempt.fail f : Attempt α).Asks := by
  refine inquires_done ?_
  intro f' heq
  cases heq
  exact hf

theorem bind {f : α → Attempt β} (hx : x.Asks) (hf : ∀ a, (f a).Asks) : (x >>= f).Asks := by
  refine Program.Inquires.bind hx ?_
  intro r hr
  cases r with
  | error e =>
    refine inquires_done ?_
    intro e' heq
    cases heq
    exact hr e rfl
  | ok a => exact hf a

theorem require (o : Option α) : (Attempt.require o).Asks := by
  cases o with
  | none => exact fail rfl
  | some a => exact pure a

theorem lift {p : Program α} {post : α → Prop} (hp : p.Inquires post) : Asks (liftM p) := by
  refine Program.Inquires.bind hp ?_
  intro a _
  exact pure a

theorem ofNote {d : Diagnostic} (hd : d.isInquiry = true) : Asks (liftM (note d)) :=
  lift (inquires_note hd)

theorem noting {d : Failure → Diagnostic} (hx : x.Asks) (hd : ∀ f, (d f).isInquiry = true) :
    (x.noting d).Asks := by
  refine Program.Inquires.bind hx ?_
  intro r hr
  cases r with
  | ok a => exact pure a
  | error f =>
    refine (inquires_note (hd f)).bind ?_
    intro _ _
    exact fail (hr f rfl)

theorem forM {ι : Type} {is : List ι} {f : ι → Attempt Unit} (hf : ∀ i, (f i).Asks) :
    (is.forM f).Asks := by
  induction is with
  | nil => exact pure ()
  | cons i is ih => exact (hf i).bind fun _ => ih

/-- A network fault is a failure of the bridge. -/
theorem mapError {p : Program (Except NetworkFault α)} (hp : p.Inquires fun _ => True) :
    Asks (ExceptT.mk (Except.mapError Failure.bus <$> p)) := by
  refine hp.bind ?_
  intro outcome _
  refine inquires_done ?_
  intro f hf
  cases outcome with
  | ok _ => cases hf
  | error _ =>
    cases hf
    rfl

end Asks
end Attempt

/-! ## §4. Transactions. -/

open Attempt (Asks)

variable {m : Mailboxes}

theorem asks_awaitResponse (response : UInt32) (budget : Nat) :
    (m.awaitResponse response budget).Asks := by
  induction budget with
  | zero => exact .fail rfl
  | succ budget ih =>
    refine Asks.bind (.mapError (inquires_read m.window response)) fun value => ?_
    by_cases hvalue : value = 0
    · rw [if_pos hvalue]
      exact ih
    · rw [if_neg hvalue]
      exact .pure _

theorem inquires_readBack (channel : Channel) (b : RegisterBlock) (words : Arguments)
    (is : List (Fin wordCount)) :
    (is.foldlM (m.readBack channel b) words).Inquires fun _ => True := by
  induction is generalizing words with
  | nil => exact inquires_done trivial
  | cons i is ih =>
    have hone : (m.readBack channel b words i).Inquires fun _ => True := by
      refine (inquires_read m.window _).bind ?_
      intro outcome _
      cases outcome with
      | ok word => exact inquires_done trivial
      | error fault =>
        refine (inquires_note rfl).bind ?_
        intro _ _
        exact inquires_done trivial
    rw [List.foldlM_cons]
    exact hone.bind fun words _ => ih words

/-- A transaction only asks. -/
theorem asks_execute (channel : Channel) (opcode : UInt32) (sent : Arguments) :
    (m.execute channel opcode sent).Asks := by
  have hwrite : ∀ a v, (m.writeWord a v).Asks := fun a v => .mapError (inquires_write m.window a v)
  refine (Asks.require _).bind fun b => ?_
  refine (Asks.ofNote rfl).bind fun _ => ?_
  refine (asks_awaitResponse b.response m.budget).bind fun gate => ?_
  refine (hwrite b.response 0).bind fun _ => ?_
  refine (Asks.forM fun i : Fin wordCount => hwrite (b.argument i) (sent.get i)).bind fun _ => ?_
  refine (hwrite b.command opcode).bind fun _ => ?_
  refine (asks_awaitResponse b.response gate.2).bind ?_
  rintro ⟨raw, _⟩
  dsimp only
  by_cases hok : Status.ofRaw raw = .ok
  · rw [if_pos hok]
    refine (Asks.lift (inquires_readBack channel b sent _)).bind fun words => ?_
    exact (Asks.ofNote rfl).bind fun _ => .pure words
  · rw [if_neg hok]
    exact (Asks.ofNote rfl).bind fun _ => .fail rfl

/-! ## §5. Finding the table. -/

theorem asks_send (opcode : UInt32) (sent : Arguments) : (m.send opcode sent).Asks :=
  asks_execute .rsmu opcode sent

theorem asks_runLocationQuery (query : LocationQuery) : (m.runLocationQuery query).Asks := by
  cases query with
  | combined opcode => exact (asks_send _ _).bind fun _ => .pure _
  | indirect => exact (asks_send _ _).bind fun _ => (asks_send _ _).bind fun _ => .pure _
  | split =>
    refine (asks_send _ _).bind fun _ => (asks_send _ _).bind fun _ => ?_
    refine (asks_send _ _).bind fun _ => (asks_send _ _).bind fun _ => ?_
    exact (asks_send _ _).bind fun _ => .pure _

theorem asks_tableFormat : m.tableFormat.Asks :=
  (Asks.require _).bind fun _ => (asks_send _ _).bind fun _ => .pure _

theorem asks_measure (location : TableLocation) (layout : Layout) :
    (m.measure location layout).Asks := by
  cases layout with
  | split primary secondary => exact .pure _
  | versioned lengths =>
    refine (asks_tableFormat.noting fun _ => rfl).bind fun format => ?_
    cases lengths.lookup format with
    | none => exact (Asks.ofNote rfl).bind fun _ => .fail rfl
    | some length => exact .pure _

/-- Finding the table only asks, and takes note of the geometry at the end if it
succeeds. -/
theorem reaches_tableGeometry {es : List Event} {r : Except Failure Geometry}
    (h : m.tableGeometry.run.Reaches es r) :
    (∃ f, r = .error f ∧ f.isInquiry = true ∧ ∀ e ∈ es, e.Inquiry) ∨
      ∃ g fs, r = .ok g ∧ (∀ e ∈ fs, e.Inquiry) ∧ es = fs ++ [⟨.note (.tableLocated g), ()⟩] := by
  have hasks : Asks (do
      let query ← Attempt.require m.codename.locationQuery?
      let layout ← Attempt.require m.codename.layout?
      let location ← (m.runLocationQuery query).noting .locationFailed
      m.measure location layout) := by
    refine (Asks.require _).bind fun query => (Asks.require _).bind fun layout => ?_
    refine ((asks_runLocationQuery query).noting fun _ => rfl).bind fun location => ?_
    exact asks_measure location layout
  -- the note of the geometry is the one event that is not part of asking
  have hsplit : m.tableGeometry = (do
      let query ← Attempt.require m.codename.locationQuery?
      let layout ← Attempt.require m.codename.layout?
      let location ← (m.runLocationQuery query).noting .locationFailed
      m.measure location layout) >>= fun g => do
        note (.tableLocated g)
        return g := by
    simp only [Mailboxes.tableGeometry, bind_assoc]
  rw [hsplit] at h
  obtain ⟨fs, gs, measured, rfl, hfs, hgs⟩ := reaches_bind_iff.1 h
  obtain ⟨hinquiry, hfailure⟩ := hasks _ _ hfs
  cases measured with
  | error f =>
    cases hgs
    rw [List.append_nil]
    exact .inl ⟨f, rfl, hfailure f rfl, hinquiry⟩
  | ok g =>
    cases hgs with
    | ask hdone =>
      cases hdone
      exact .inr ⟨g, fs, rfl, hinquiry, rfl⟩

end ManagementUnit
