/-
  ManagementUnit.Proofs.Mailbox.Conversation
  ────────────────────────────────
  What is put to the firmware, and in which order.

  A message is a mailbox, an opcode and six words; an exchange is a message and
  what came of it.  `Conversation m es xs` reads the events `es` as the exchanges
  `xs`: each is the run of one transaction, and between them nothing is accessed
  but the identity of the bridge.  So a statement about the exchanges of a journal
  is one about everything that the mailboxes of the machine get to see.

  A plan is a row of messages.  Whoever pursues it puts them one after the other
  and stops at the first that fails, so that what was exchanged keeps to the plan,
  and completes it exactly if nothing failed.

  Main results:
    * `Conversation.unique` — the events determine the exchanges.
    * `converses_exchange`  — a transaction is one exchange.
    * `converses_pursue`    — pursuing a plan is putting its messages until one
      fails.
    * `Pursued.completes_iff` — the plan is completed if and only if none does.
    * `run_version`         — the version query is one transaction.
-/
import ManagementUnit.Proofs.Mailbox.Course
import ManagementUnit.Proofs.Mailbox.Inquiry

namespace ManagementUnit

open Program (request note reaches_bind_iff reaches_done_iff)

/-! ## §1. Messages and exchanges. -/

/-- What is put to the firmware of a mailbox. -/
structure Message where
  channel : Channel
  opcode : UInt32
  arguments : Arguments
  deriving DecidableEq

/-- A message and what came of it. -/
structure Exchange where
  message : Message
  result : Except Failure Arguments

/-- Puts a message to the firmware. -/
def Mailboxes.exchange (m : Mailboxes) (x : Message) : Attempt Arguments :=
  m.execute x.channel x.opcode x.arguments

/-- Puts the messages of a plan one after the other; the first one that fails is the
last one. -/
def Mailboxes.pursue (m : Mailboxes) (plan : List Message) : Attempt (List Arguments) :=
  plan.mapM m.exchange

/-- What is no part of an exchange: of all accesses only the one that asks the bridge
for its identity, and of all notes all but the one that announces a message. -/
def Request.isAside : Request → Bool
  | writeBridge .. | note (.requestSent ..) => false
  | readBridge offset => offset == 0
  | _ => true

/-- The events `es` are the exchanges `xs`, with what is aside of them in between. -/
inductive Conversation (m : Mailboxes) : List Event → List Exchange → Prop where
  | nil : Conversation m [] []
  | aside {e : Event} {es : List Event} {xs : List Exchange} (he : e.request.isAside = true)
      (h : Conversation m es xs) : Conversation m (e :: es) xs
  | exchange {x : Exchange} {b : RegisterBlock} {es fs : List Event} {xs : List Exchange}
      (hb : m.registers? x.message.channel = some b)
      (hx : (m.exchange x.message).run.Reaches es x.result) (h : Conversation m fs xs) :
      Conversation m (es ++ fs) (x :: xs)

/-! ## §2. The events determine the exchanges. -/

/-- A program that is answered the same way asks the same and comes to the same end. -/
theorem Program.Reaches.unique {α : Type} {p : Program α} {es es' fs fs' : List Event} {a a' : α}
    (h : p.Reaches es a) (h' : p.Reaches es' a') (heq : es ++ fs = es' ++ fs') :
    es = es' ∧ a = a' ∧ fs = fs' := by
  induction h generalizing es' with
  | done a =>
    obtain ⟨rfl, rfl⟩ := reaches_done_iff.1 h'
    exact ⟨rfl, rfl, heq⟩
  | ask _ ih =>
    cases h' with
    | ask h' =>
      cases List.cons_eq_cons.1 heq |>.1
      obtain ⟨rfl, rfl, rfl⟩ := ih h' (List.cons_eq_cons.1 heq).2
      exact ⟨rfl, rfl, rfl⟩

/-- A transaction announces its message before it does anything. -/
theorem Mailboxes.reaches_exchange {m : Mailboxes} {x : Message} {b : RegisterBlock}
    (hb : m.registers? x.channel = some b) {es : List Event} {r : Except Failure Arguments}
    (h : (m.exchange x).run.Reaches es r) :
    ∃ fs, es = ⟨.note (.requestSent x.channel x.opcode x.arguments), ()⟩ :: fs := by
  unfold exchange execute at h
  rw [hb] at h
  cases h with
  | ask => exact ⟨_, rfl⟩

/-- Where there is a mailbox, nothing that is put to it is unsupported. -/
theorem Mailboxes.supported_exchange {m : Mailboxes} {x : Message} {b : RegisterBlock}
    (hb : m.registers? x.channel = some b) {es : List Event} {r : Except Failure Arguments}
    (h : (m.exchange x).run.Reaches es r) : r ≠ .error .unsupported := by
  obtain ⟨as, -, hcourse, -⟩ := conducts_execute hb x.opcode x.arguments es r h
  cases hcourse <;> simp

namespace Conversation

variable {m : Mailboxes} {es fs : List Event} {xs ys : List Exchange}

theorem append (h : Conversation m es xs) (h' : Conversation m fs ys) :
    Conversation m (es ++ fs) (xs ++ ys) := by
  induction h with
  | nil => exact h'
  | aside he _ ih => exact .aside he ih
  | exchange hb hx _ ih =>
    rw [List.append_assoc]
    exact .exchange hb hx ih

/-- Events without an exchange can follow. -/
theorem followed (h : Conversation m es xs) (h' : Conversation m fs []) :
    Conversation m (es ++ fs) xs := by
  rw [← List.append_nil xs]
  exact h.append h'

theorem ofAside (h : ∀ e ∈ es, e.request.isAside = true) : Conversation m es [] := by
  induction es with
  | nil => exact .nil
  | cons e es ih =>
    obtain ⟨he, hes⟩ := List.forall_mem_cons.1 h
    exact .aside he (ih hes)

/-- What is aside begins no exchange. -/
theorem aside_ne_exchange {e : Event} {x : Exchange} {b : RegisterBlock} {gs : List Event}
    (he : e.request.isAside = true) (hb : m.registers? x.message.channel = some b)
    (hx : (m.exchange x.message).run.Reaches gs x.result) : e :: es ≠ gs ++ fs := by
  intro heq
  obtain ⟨gs, rfl⟩ := Mailboxes.reaches_exchange hb hx
  cases List.cons_eq_cons.1 heq |>.1
  cases he

/-- The events determine the exchanges. -/
theorem unique (h : Conversation m es xs) (h' : Conversation m es ys) : xs = ys := by
  induction h generalizing ys with
  | nil =>
    generalize hes : ([] : List Event) = es at h'
    cases h' with
    | nil => rfl
    | aside => cases hes
    | exchange hb hx =>
      obtain ⟨_, rfl⟩ := Mailboxes.reaches_exchange hb hx
      cases hes
  | @aside e es xs he h ih =>
    generalize hes : e :: es = gs at h'
    cases h' with
    | nil => cases hes
    | aside he' h' =>
      cases hes
      exact ih h'
    | exchange hb hx => exact absurd hes (aside_ne_exchange he hb hx)
  | @exchange x b es fs xs hb hx h ih =>
    generalize hes : es ++ fs = gs at h'
    cases h' with
    | nil =>
      obtain ⟨_, rfl⟩ := Mailboxes.reaches_exchange hb hx
      cases hes
    | aside he => exact absurd hes.symm (aside_ne_exchange he hb hx)
    | @exchange y b' es' fs' ys hb' hy h' =>
      rcases x with ⟨⟨channel, opcode, arguments⟩, result⟩
      rcases y with ⟨⟨channel', opcode', arguments'⟩, result'⟩
      -- the announcements are the same, so the messages are
      obtain ⟨front, rfl⟩ := Mailboxes.reaches_exchange hb hx
      obtain ⟨front', rfl⟩ := Mailboxes.reaches_exchange hb' hy
      cases List.cons_eq_cons.1 hes |>.1
      obtain ⟨-, rfl, rfl⟩ := hx.unique hy hes
      rw [ih h']

end Conversation

/-! ## §3. Programs that converse. -/

namespace Program

variable {α β : Type}

/-- However the platform answers, the events of `p` are exchanges that satisfy `post`
together with the answer. -/
def Converses (m : Mailboxes) (p : Program α) (post : List Exchange → α → Prop) : Prop :=
  ∀ es a, p.Reaches es a → ∃ xs, Conversation m es xs ∧ post xs a

variable {m : Mailboxes} {p : Program α}

theorem converses_done {a : α} {post : List Exchange → α → Prop} (h : post [] a) :
    (done a).Converses m post := by
  intro es b hes
  obtain ⟨rfl, rfl⟩ := reaches_done_iff.1 hes
  exact ⟨[], .nil, h⟩

/-- Two programs in a row have their exchanges in a row. -/
theorem Converses.bind {next : α → Program β} {mid : List Exchange → α → Prop}
    {post : List Exchange → β → Prop} (hp : p.Converses m mid)
    (hn : ∀ xs a, mid xs a → (next a).Converses m fun ys b => post (xs ++ ys) b) :
    (p >>= next).Converses m post := by
  intro es b hes
  obtain ⟨fs, gs, a, rfl, hf, hg⟩ := reaches_bind_iff.1 hes
  obtain ⟨xs, hxs, ha⟩ := hp fs a hf
  obtain ⟨ys, hys, hb⟩ := hn xs a ha gs b hg
  exact ⟨xs ++ ys, hxs.append hys, hb⟩

theorem converses_note {d : Diagnostic} (hd : (Request.note d).isAside = true) :
    (note d).Converses m fun xs _ => xs = [] := by
  intro es a hes
  cases hes with
  | ask hes =>
    cases hes
    exact ⟨[], .aside hd .nil, rfl⟩

end Program

open Program (Converses converses_done converses_note)

variable {m : Mailboxes} {α β : Type}

/-- A transaction is one exchange, and none without the mailbox. -/
theorem converses_exchange (x : Message) :
    (m.exchange x).run.Converses m fun xs r =>
      (m.registers? x.channel = none ∧ xs = [] ∧ r = .error .unsupported) ∨
        ((∃ b, m.registers? x.channel = some b) ∧ xs = [⟨x, r⟩]) := by
  intro es r hes
  cases hb : m.registers? x.channel with
  | none =>
    unfold Mailboxes.exchange Mailboxes.execute at hes
    rw [hb] at hes
    cases hes
    exact ⟨[], .nil, .inl ⟨rfl, rfl, rfl⟩⟩
  | some b =>
    have hone : Conversation m (es ++ []) [⟨x, r⟩] := .exchange hb hes .nil
    rw [List.append_nil] at hone
    exact ⟨[⟨x, r⟩], hone, .inr ⟨⟨b, rfl⟩, rfl⟩⟩

/-- An attempt that goes on after another one, in what is exchanged. -/
theorem Program.Converses.attempt {x : Attempt α} {f : α → Attempt β}
    {mid : List Exchange → Except Failure α → Prop}
    {post : List Exchange → Except Failure β → Prop} (hx : x.run.Converses m mid)
    (herror : ∀ xs e, mid xs (.error e) → post xs (.error e))
    (hok : ∀ xs a, mid xs (.ok a) → (f a).run.Converses m fun ys r => post (xs ++ ys) r) :
    (x >>= f).run.Converses m post := by
  refine Converses.bind hx ?_
  intro xs r hr
  cases r with
  | error e =>
    refine converses_done ?_
    rw [List.append_nil]
    exact herror xs e hr
  | ok a => exact hok xs a hr

/-- Taking note of a failure puts nothing to the firmware. -/
theorem Program.Converses.noting {x : Attempt α} {d : Failure → Diagnostic}
    {post : List Exchange → Except Failure α → Prop} (hx : x.run.Converses m post)
    (hd : ∀ f, (Request.note (d f)).isAside = true) : (x.noting d).run.Converses m post := by
  refine Converses.bind hx ?_
  intro xs r hr
  cases r with
  | ok a =>
    refine converses_done ?_
    rwa [List.append_nil]
  | error f =>
    refine (converses_note (hd f)).bind ?_
    rintro _ _ rfl
    refine converses_done ?_
    rwa [List.append_nil, List.append_nil]

/-! ## §4. Plans. -/

/-- What was exchanged are messages of the plan, in order from the first one on, and
none that failed but the last. -/
structure KeepsTo (plan : List Message) (xs : List Exchange) : Prop where
  leading : xs.map Exchange.message <+: plan
  unfailing : ∀ x ∈ xs.dropLast, x.result.isOk = true

/-- All messages of the plan were put, and none failed. -/
structure Completes (plan : List Message) (xs : List Exchange) : Prop where
  whole : xs.map Exchange.message = plan
  unfailing : ∀ x ∈ xs, x.result.isOk = true

section Plans

variable {plan rest : List Message} {xs ys : List Exchange}

theorem KeepsTo.nil (plan : List Message) : KeepsTo plan [] :=
  ⟨List.nil_prefix, List.forall_mem_nil _⟩

theorem Completes.nil : Completes [] [] := ⟨rfl, List.forall_mem_nil _⟩

theorem Completes.keepsTo (h : Completes plan xs) : KeepsTo plan xs :=
  ⟨h.whole ▸ List.prefix_rfl, fun x hx => h.unfailing x (List.dropLast_subset xs hx)⟩

/-- What keeps to a plan keeps to it however it goes on. -/
theorem KeepsTo.extend (h : KeepsTo plan xs) (rest : List Message) : KeepsTo (plan ++ rest) xs :=
  ⟨h.leading.trans (List.prefix_append _ _), h.unfailing⟩

/-- A plan that is completed can be pursued further. -/
theorem Completes.append_keepsTo (h : Completes plan xs) (h' : KeepsTo rest ys) :
    KeepsTo (plan ++ rest) (xs ++ ys) := by
  refine ⟨?_, ?_⟩
  · rw [List.map_append, h.whole]
    exact (List.prefix_append_right_inj _).2 h'.leading
  · intro x hx
    rcases List.eq_nil_or_concat ys with rfl | ⟨front, y, rfl⟩
    · rw [List.append_nil] at hx
      exact h.unfailing x (List.dropLast_subset xs hx)
    · rw [List.concat_eq_append] at h' hx
      have hlater := h'.unfailing
      rw [List.dropLast_concat] at hlater
      rw [← List.append_assoc, List.dropLast_concat] at hx
      exact (List.mem_append.1 hx).elim (h.unfailing x) (hlater x)

theorem Completes.append (h : Completes plan xs) (h' : Completes rest ys) :
    Completes (plan ++ rest) (xs ++ ys) := by
  refine ⟨?_, List.forall_mem_append.2 ⟨h.unfailing, h'.unfailing⟩⟩
  rw [List.map_append, h.whole, h'.whole]

/-- Behind a part that is completed, it is the rest that counts. -/
theorem Completes.append_iff (h : Completes plan xs) :
    Completes (plan ++ rest) (xs ++ ys) ↔ Completes rest ys := by
  refine ⟨fun h' => ⟨?_, ?_⟩, h.append⟩
  · have hwhole := h'.whole
    rw [List.map_append, h.whole] at hwhole
    exact List.append_cancel_left hwhole
  · exact (List.forall_mem_append.1 h'.unfailing).2

/-- What fails at the end fails at the end behind anything else. -/
theorem failed_last_append {f : Failure} (h : ∃ front x, ys = front ++ [⟨x, .error f⟩])
    (xs : List Exchange) : ∃ front x, xs ++ ys = front ++ [⟨x, .error f⟩] := by
  obtain ⟨front, x, rfl⟩ := h
  exact ⟨xs ++ front, x, (List.append_assoc _ _ _).symm⟩

end Plans

/-- What pursuing a plan can come to: all answers, or the first failure. -/
inductive Mailboxes.Pursued (m : Mailboxes) :
    List Message → List Exchange → Except Failure (List Arguments) → Prop where
  | nil : Pursued m [] [] (.ok [])
  | lacking {x : Message} {plan : List Message} (h : m.registers? x.channel = none) :
      Pursued m (x :: plan) [] (.error .unsupported)
  | failed {x : Message} {plan : List Message} (f : Failure) :
      Pursued m (x :: plan) [⟨x, .error f⟩] (.error f)
  | cons {x : Message} {plan : List Message} {xs : List Exchange}
      {r : Except Failure (List Arguments)} (words : Arguments) (h : Pursued m plan xs r) :
      Pursued m (x :: plan) (⟨x, .ok words⟩ :: xs) (r.map (words :: ·))

namespace Mailboxes.Pursued

variable {plan : List Message} {xs : List Exchange} {r : Except Failure (List Arguments)}

theorem keepsTo (h : m.Pursued plan xs r) : KeepsTo plan xs := by
  induction h with
  | nil | lacking => exact .nil _
  | failed f => exact ⟨(List.prefix_append_right_inj [_]).2 List.nil_prefix, List.forall_mem_nil _⟩
  | @cons x plan xs r words h ih =>
    have hfirst : Completes [x] [⟨x, .ok words⟩] := ⟨rfl, List.forall_mem_singleton.2 rfl⟩
    exact hfirst.append_keepsTo ih

/-- The plan is completed if and only if nothing fails. -/
theorem completes_iff (h : m.Pursued plan xs r) : Completes plan xs ↔ r.isOk = true := by
  induction h with
  | nil => exact ⟨fun _ => rfl, fun _ => .nil⟩
  | lacking => exact ⟨fun h => absurd h.whole (List.cons_ne_nil _ _).symm, nofun⟩
  | failed f => exact ⟨fun h => absurd (h.unfailing _ List.mem_cons_self) Bool.false_ne_true, nofun⟩
  | @cons x plan xs r words h ih =>
    have hfirst : Completes [x] [⟨x, .ok words⟩] := ⟨rfl, List.forall_mem_singleton.2 rfl⟩
    have hmap : (r.map (words :: ·)).isOk = r.isOk := by cases r <;> rfl
    rw [hmap, ← ih]
    exact @Completes.append_iff _ plan _ xs hfirst

/-- One message that fails is one exchange, unless there is no mailbox. -/
theorem single_error {x : Message} {f : Failure} (h : m.Pursued [x] xs (.error f)) :
    m.registers? x.channel = none ∧ xs = [] ∧ f = .unsupported ∨ xs = [⟨x, .error f⟩] := by
  generalize hr : Except.error f = r at h
  cases h with
  | lacking hb =>
    cases hr
    exact .inl ⟨hb, rfl, rfl⟩
  | failed f =>
    cases hr
    exact .inr rfl
  | cons words h =>
    cases h
    cases hr

/-- Where there is a mailbox for each message, a plan that fails fails at the last
exchange. -/
theorem failed_last {f : Failure} (h : m.Pursued plan xs (.error f))
    (hplan : ∀ x ∈ plan, ∃ b, m.registers? x.channel = some b) :
    ∃ front x, xs = front ++ [⟨x, .error f⟩] := by
  generalize hr : Except.error f = r at h
  induction h with
  | nil => cases hr
  | @lacking x plan hnone =>
    obtain ⟨b, hb⟩ := hplan x List.mem_cons_self
    cases hnone.symm.trans hb
  | @failed x plan f' =>
    cases hr
    exact ⟨[], x, rfl⟩
  | @cons x plan xs r words _ ih =>
    cases r with
    | ok => cases hr
    | error =>
      cases hr
      obtain ⟨front, y, rfl⟩ := ih (fun z hz => hplan z (List.mem_cons_of_mem _ hz)) rfl
      exact ⟨_ :: front, y, rfl⟩

end Mailboxes.Pursued

/-- The plan was pursued, and that ended like an attempt with the outcome `r`: with
answers if the attempt succeeds, with its failure otherwise. -/
def Mailboxes.PursuedAs {α : Type} (m : Mailboxes) (plan : List Message) (xs : List Exchange)
    (r : Except Failure α) : Prop :=
  ∃ answers, m.Pursued plan xs (r.map fun _ => answers)

namespace Mailboxes.PursuedAs

variable {α : Type} {plan : List Message} {xs : List Exchange} {r : Except Failure α}

/-- Nothing is left to do of an empty plan. -/
theorem nil (a : α) : m.PursuedAs [] [] (.ok a) := ⟨[], .nil⟩

theorem keepsTo (h : m.PursuedAs plan xs r) : KeepsTo plan xs := by
  obtain ⟨answers, h⟩ := h
  exact h.keepsTo

theorem completes_iff (h : m.PursuedAs plan xs r) : Completes plan xs ↔ r.isOk = true := by
  obtain ⟨answers, h⟩ := h
  have hmap : (r.map fun _ => answers).isOk = r.isOk := by cases r <;> rfl
  rw [h.completes_iff, hmap]

theorem failed_last {f : Failure} (h : m.PursuedAs plan xs (.error f : Except Failure α))
    (hplan : ∀ x ∈ plan, ∃ b, m.registers? x.channel = some b) :
    ∃ front x, xs = front ++ [⟨x, .error f⟩] := by
  obtain ⟨answers, h⟩ := h
  exact h.failed_last hplan

end Mailboxes.PursuedAs

theorem converses_pursue (plan : List Message) :
    (m.pursue plan).run.Converses m (m.Pursued plan) := by
  induction plan with
  | nil => exact converses_done .nil
  | cons x plan ih =>
    unfold Mailboxes.pursue at ih ⊢
    rw [List.mapM_cons]
    refine (converses_exchange x).attempt ?_ ?_
    · rintro xs e (⟨hb, rfl, heq⟩ | ⟨-, rfl⟩)
      · cases heq
        exact .lacking hb
      · exact .failed e
    · rintro xs words (⟨-, -, heq⟩ | ⟨-, rfl⟩)
      · cases heq
      · refine ih.attempt ?_ ?_
        · intro ys e h
          exact .cons words h
        · intro ys answers h
          refine converses_done ?_
          rw [List.append_nil]
          exact .cons words h

/-- To put one message is to pursue a plan of one message. -/
theorem conversation_exchange (x : Message) {es : List Event} {r : Except Failure Arguments}
    (h : (m.exchange x).run.Reaches es r) :
    ∃ xs, Conversation m es xs ∧ m.PursuedAs [x] xs r := by
  obtain ⟨xs, hxs, hend⟩ := converses_exchange x es r h
  refine ⟨xs, hxs, ?_⟩
  obtain ⟨hb, rfl, rfl⟩ | ⟨-, rfl⟩ := hend
  · exact ⟨[], .lacking hb⟩
  · cases r with
    | error f => exact ⟨[], .failed f⟩
    | ok words => exact ⟨[words], .cons words .nil⟩

/-! ## §5. The version query. -/

/-- The version query of a mailbox. -/
def Message.version (channel : Channel) : Message := ⟨channel, Mailboxes.versionOpcode, .first 1⟩

/-- The version that an answer tells. -/
def Version.ofAnswer (words : Arguments) : Except Failure Version :=
  if words.word0 ≤ 0xFF then .error (.rejected .failed) else .ok ⟨words.word0⟩

theorem Version.ofAnswer_isOk {words : Arguments} :
    (ofAnswer words).isOk = true ↔ 0xFF < words.word0 := by
  unfold ofAnswer
  split
  · next hsmall => exact ⟨nofun, fun h => absurd hsmall (UInt32.not_le.2 h)⟩
  · next hlarge => exact ⟨fun _ => UInt32.not_le.1 hlarge, fun _ => rfl⟩

/-- The version query only asks. -/
theorem asks_version (channel : Channel) : (m.version channel).Asks := by
  refine (asks_execute channel _ _).bind fun words => ?_
  split
  · exact .fail rfl
  · exact .pure _

/-- The version query is one transaction, of which only the answer is looked at. -/
theorem Mailboxes.run_version (m : Mailboxes) (channel : Channel) :
    (m.version channel).run = (m.exchange (.version channel)).run >>= fun answer =>
      pure (answer.bind Version.ofAnswer) := by
  unfold version
  rw [ExceptT.run_bind]
  refine bind_congr fun answer => ?_
  cases answer with
  | error f => rfl
  | ok words =>
    show (if words.word0 ≤ 0xFF then Attempt.fail (.rejected .failed)
      else pure ⟨words.word0⟩ : Attempt Version).run = pure (Version.ofAnswer words)
    unfold Version.ofAnswer
    split <;> rfl

/-- What comes of it is what its answer tells. -/
theorem Mailboxes.reaches_version {channel : Channel} {es : List Event}
    {r : Except Failure Version} (h : (m.version channel).run.Reaches es r) :
    ∃ answer, (m.exchange (.version channel)).run.Reaches es answer ∧
      r = answer.bind Version.ofAnswer := by
  rw [run_version] at h
  obtain ⟨fs, _, answer, rfl, hanswer, hrest⟩ := reaches_bind_iff.1 h
  obtain ⟨rfl, rfl⟩ := reaches_done_iff.1 hrest
  rw [List.append_nil]
  exact ⟨answer, hanswer, rfl⟩

end ManagementUnit
