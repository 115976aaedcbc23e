/-
  ManagementUnit.Proofs.Driver.Plan
  ────────────────────────────────
  What the search for what works puts to the firmware, step by step.

  The search puts its questions to the general purpose mailbox in an order that the
  generation fixes:

      version · transfer · format · location · format again · transfer again

  where the second format query belongs to a length that goes by the format, and the
  second transfer falls due only if the interval has passed.  A generation that lacks
  a step has a shorter plan.

  Main results:
    * `searchPlan_of_transfer` — the plan of a generation that can transfer.
    * `conversation_version`, `conversation_formatOrZero`, `Throttled.conversation` —
      what a step puts to the firmware.
    * `Surveyed.formatsTold`, `Surveyed.broken` — what the firmware tells of the format
      when the table is found, and where finding it breaks off.
-/
import ManagementUnit.Driver.Start
import ManagementUnit.Proofs.Table.Resolution
import ManagementUnit.Proofs.Table.Throttle

namespace ManagementUnit

open Program (reaches_bind_iff reaches_done_iff)

/-! ## §1. The plan of a generation. -/

namespace Codename

/-- The steps of the search, each with its messages; `none` is a step that the
generation lacks.  A format that cannot be asked for is passed over. -/
def searchSteps (c : Codename) (due : Bool) : List (Option (List Message)) :=
  [some [.version .rsmu],
    c.transferMessage?.map ([·]),
    some c.formatMessage?.toList,
    c.locationQuery?.map LocationQuery.messages,
    c.layout?.map (Layout.messages c),
    if due then c.transferMessage?.map ([·]) else some []]

/-- What the search puts to the firmware if nothing makes it break off; it does not come
past a step that the generation lacks. -/
def searchPlan (c : Codename) (due : Bool) : List Message :=
  ((c.searchSteps due).takeWhile Option.isSome).flatMap fun step => step.getD []

/-- All of it goes to the general purpose mailbox. -/
theorem channel_of_searchPlan (c : Codename) (due : Bool) :
    ∀ x ∈ c.searchPlan due, x.channel = .rsmu := by
  cases c <;> cases due <;> decide

/-- It begins with the version query. -/
theorem searchPlan_eq_cons (c : Codename) (due : Bool) :
    ∃ rest, c.searchPlan due = [.version .rsmu] ++ rest := ⟨_, rfl⟩

theorem searchPlan_of_lacking {c : Codename} (h : c.transferMessage? = none) (due : Bool) :
    c.searchPlan due = [.version .rsmu] := by
  simp [searchPlan, searchSteps, h]

theorem searchPlan_of_transfer {c : Codename} {x : Message} {q : LocationQuery} {l : Layout}
    (hx : c.transferMessage? = some x) (hq : c.locationQuery? = some q) (hl : c.layout? = some l)
    (due : Bool) :
    c.searchPlan due = ([.version .rsmu] ++ ([x] ++ c.formatMessage?.toList)) ++
      ((q.messages ++ l.messages c) ++ if due then [x] else []) := by
  cases due <;> simp [searchPlan, searchSteps, hx, hq, hl]

-- version, transfer, format, location and format again
example : (matisse.searchPlan false).map Message.opcode = [0x02, 0x05, 0x08, 0x06, 0x08] := by
  decide

/-- The transfer command goes to the general purpose mailbox. -/
theorem channel_of_transferMessage? {c : Codename} {x : Message}
    (h : c.transferMessage? = some x) : x.channel = .rsmu := by
  obtain ⟨command, -, rfl⟩ := Option.map_eq_some_iff.1 h
  rfl

/-- A generation that lacks nothing has a transfer command. -/
theorem transferMessage?_of_isComplete {c : Codename} (h : c.scheme.isComplete = true) :
    ∃ x, c.transferMessage? = some x := by
  cases c <;> first | exact ⟨_, rfl⟩ | cases h

/-- A generation with a transfer command lacks nothing. -/
theorem isComplete_of_transferMessage? {c : Codename} {x : Message}
    (h : c.transferMessage? = some x) : c.scheme.isComplete = true := by
  cases c <;> first | rfl | cases h

end Codename

/-! ## §2. What the firmware tells of the format. -/

/-- The format identifier that an exchange tells, if it asks for it. -/
def Exchange.format? (c : Codename) (x : Exchange) : Option UInt32 :=
  if c.formatMessage? = some x.message then x.result.toOption.map Arguments.word0 else none

/-- The format identifiers that the firmware tells, in order. -/
def formatsTold (c : Codename) (xs : List Exchange) : List UInt32 :=
  xs.filterMap (Exchange.format? c)

section Formats

variable {c : Codename} {m : Mailboxes} {xs ys : List Exchange}

theorem formatsTold_append : formatsTold c (xs ++ ys) = formatsTold c xs ++ formatsTold c ys :=
  List.filterMap_append

theorem formatsTold_eq_nil (h : ∀ x ∈ xs, c.formatMessage? ≠ some x.message) :
    formatsTold c xs = [] := by
  refine List.filterMap_eq_nil_iff.2 ?_
  intro x hx
  exact if_neg (h x hx)

theorem formatsTold_single {x : Message} (h : c.formatMessage? = some x) (words : Arguments) :
    formatsTold c [⟨x, .ok words⟩] = [words.word0] := by
  simp [formatsTold, Exchange.format?, h, Except.toOption]

theorem Mailboxes.Told.formatsTold {format : UInt32} (h : m.Told xs (.ok format)) :
    formatsTold m.codename xs = [format] := by
  cases h with
  | told h => exact formatsTold_single h _

/-- An exchange tells one format at most. -/
theorem length_formatsTold_le : (formatsTold c xs).length ≤ xs.length :=
  List.length_filterMap_le _ _

/-- What is told before the last exchange is told on the whole. -/
theorem getElem?_formatsTold_dropLast {i : Nat} {format : UInt32}
    (h : (formatsTold c xs.dropLast)[i]? = some format) :
    (formatsTold c xs)[i]? = some format := by
  obtain ⟨back, hback⟩ := List.dropLast_prefix xs
  have hlt := (List.getElem?_eq_some_iff.1 h).1
  rw [← hback, formatsTold_append, List.getElem?_append_left hlt]
  exact h

/-- A plan without the format query tells no format. -/
theorem KeepsTo.formatsTold {plan : List Message} (h : KeepsTo plan xs)
    (hplan : ∀ x ∈ plan, c.formatMessage? ≠ some x) : formatsTold c xs = [] := by
  refine formatsTold_eq_nil ?_
  intro x hx
  exact hplan _ (h.leading.subset (List.mem_map_of_mem hx))

end Formats

/-! ## §3. Its steps. -/

section Steps

variable {m : Mailboxes} {es : List Event} {xs : List Exchange}

/-- Nothing that was exchanged is unsupported. -/
theorem Conversation.supported (h : Conversation m es xs) :
    ∀ x ∈ xs, x.result ≠ .error .unsupported := by
  induction h with
  | nil => exact List.forall_mem_nil _
  | aside _ _ ih => exact ih
  | exchange hb hx _ ih => exact List.forall_mem_cons.2 ⟨Mailboxes.supported_exchange hb hx, ih⟩

/-- The version query is an exchange, or there is no mailbox. -/
theorem conversation_version {channel : Channel} {r : Except Failure Version}
    (h : (m.version channel).run.Reaches es r) :
    (m.registers? channel = none ∧ Conversation m es [] ∧ r = .error .unsupported) ∨
      ∃ b answer, m.registers? channel = some b ∧
        Conversation m es [⟨.version channel, answer⟩] ∧ r = answer.bind Version.ofAnswer := by
  obtain ⟨answer, hanswer, rfl⟩ := Mailboxes.reaches_version h
  obtain ⟨xs, hxs, ⟨hnone, rfl, rfl⟩ | ⟨⟨b, hb⟩, rfl⟩⟩ := converses_exchange _ _ _ hanswer
  · exact .inl ⟨hnone, hxs, rfl⟩
  · exact .inr ⟨b, answer, hb, hxs, rfl⟩

/-- A version is told by an exchange that tells one. -/
theorem conversation_version_ok {channel : Channel} {v : Version}
    (h : (m.version channel).run.Reaches es (.ok v)) :
    ∃ b words, m.registers? channel = some b ∧
      Conversation m es [⟨.version channel, .ok words⟩] ∧ 0xFF < words.word0 := by
  obtain ⟨-, -, heq⟩ | ⟨b, answer, hb, hes, heq⟩ := conversation_version h
  · cases heq
  · cases answer with
    | error f => cases heq
    | ok words =>
      refine ⟨b, words, hb, hes, Version.ofAnswer_isOk.1 ?_⟩
      have heq : Version.ofAnswer words = .ok v := heq.symm
      rw [heq]
      rfl

/-- Asking for the format that the capabilities tell only asks. -/
theorem inquiry_of_formatOrZero {r : Except Failure UInt32} (h : m.formatOrZero.run.Reaches es r) :
    ∀ e ∈ es, e.Inquiry := by
  obtain ⟨fs, gs, told, rfl, htold, hrest⟩ := reaches_bind_iff.1 h
  refine List.forall_mem_append.2 ⟨(asks_tableFormat _ _ htold).1, ?_⟩
  split at hrest <;>
    · cases hrest
      exact List.forall_mem_nil _

/-- Asking for the format that the capabilities tell is asking for the format; zero
stands for a generation that cannot tell one. -/
theorem conversation_formatOrZero {b : RegisterBlock} (hb : m.registers? .rsmu = some b)
    {r : Except Failure UInt32} (h : m.formatOrZero.run.Reaches es r) :
    ∃ xs, Conversation m es xs ∧
      (m.codename.formatMessage? = none ∧ xs = [] ∧ r = .ok 0 ∨
        ∃ x, m.codename.formatMessage? = some x ∧ m.Told xs r) := by
  obtain ⟨fs, gs, told, rfl, htold, hrest⟩ := reaches_bind_iff.1 h
  obtain ⟨xs, hxs, hend⟩ := converses_tableFormat _ _ htold
  -- of all failures, only the one that a lacking query ends in is taken for zero
  have hzero : told = .error .unsupported → gs = [] ∧ r = .ok 0 := by
    rintro rfl
    exact reaches_done_iff.1 hrest
  have hkept : told ≠ .error .unsupported → gs = [] ∧ r = told := by
    intro hne
    rcases told with (_ | _ | _ | _ | _ | _ | _) | _
    all_goals first | exact absurd rfl hne | exact reaches_done_iff.1 hrest
  have hasked : ∀ {x}, m.codename.formatMessage? = some x → m.Told xs told →
      told ≠ .error .unsupported → ∃ xs, Conversation m (fs ++ gs) xs ∧
        (m.codename.formatMessage? = none ∧ xs = [] ∧ r = .ok 0 ∨
          ∃ x, m.codename.formatMessage? = some x ∧ m.Told xs r) := by
    intro x hx hfs hne
    obtain ⟨rfl, rfl⟩ := hkept hne
    rw [List.append_nil]
    exact ⟨xs, hxs, .inr ⟨x, hx, hfs⟩⟩
  cases hend with
  | lacking hnone =>
    obtain ⟨rfl, rfl⟩ := hzero rfl
    rw [List.append_nil]
    exact ⟨[], hxs, .inl ⟨hnone, rfl, rfl⟩⟩
  | told hx => exact hasked hx (.told hx) nofun
  | @failed x _ f hx hpursued =>
    refine hasked hx (.failed hx hpursued) ?_
    obtain ⟨habsent, -, -⟩ | rfl := hpursued.single_error
    · rw [(Codename.formatMessage?_spec hx).1, hb] at habsent
      cases habsent
    · intro heq
      cases heq
      exact hxs.supported _ List.mem_cons_self rfl

/-- Only a generation with a transfer command transfers. -/
theorem TableReader.Transferred.transferMessage? {t t' : TableReader}
    (h : TableReader.Transferred m t es (.ok ()) t') :
    ∃ x, t.codename.transferMessage? = some x := by
  refine Option.ne_none_iff_exists'.1 fun hnone => ?_
  cases h with
  | stamped now hsent => cases (hsent.lacking_of_none hnone).2

/-- The second transfer is put to the firmware if the first one is not recent any more
when the clock is read. -/
theorem TableReader.Throttled.conversation {t t' : TableReader} {x : Message}
    (hx : t.codename.transferMessage? = some x) {r : Except Failure Bool}
    (h : TableReader.Throttled m t es r t') :
    ∃ now us, readings es = [now] ∧ Conversation m es us ∧
      m.PursuedAs (if t.isFresh now then [] else [x]) us r := by
  have hreadings : ∀ {now fs s}, TableReader.Sent m t.codename fs s →
      readings (⟨.now, now⟩ :: fs) = [now] := by
    intro now fs s hsent
    have hrest : readings fs = [] := List.filterMap_eq_nil_iff.2 hsent.reading
    exact congrArg (now :: ·) hrest
  cases h with
  | @fresh now hfresh =>
    refine ⟨now, [], rfl, .aside rfl .nil, ?_⟩
    rw [hfresh]
    exact .nil _
  | @failed now fs e hstale hsent =>
    obtain ⟨us, hus, hend⟩ := hsent.conversation hx
    refine ⟨now, us, hreadings hsent, .aside rfl hus, ?_⟩
    rw [hstale]
    exact hend
  | @stamped now fs hstale hsent =>
    obtain ⟨us, hus, hend⟩ := hsent.conversation hx
    refine ⟨now, us, hreadings hsent, .aside rfl hus, ?_⟩
    rw [hstale]
    exact hend

namespace Mailboxes.Surveyed

variable {q : LocationQuery} {l : Layout}

/-- The location query is not the format query, so the format is told when the table
is measured and not before. -/
theorem formatsTold_of_location (hq : m.codename.locationQuery? = some q)
    (h : Completes q.messages xs) : formatsTold m.codename xs = [] := by
  refine h.keepsTo.formatsTold ?_
  intro x hx hformat
  exact (Codename.formatMessage?_spec hformat).2.2.2 q hq hx

/-- Where the length goes by the format, the format that was told is that of the
geometry. -/
theorem formatsTold {lengths : List (UInt32 × Nat)} {g : Geometry}
    (hl : m.codename.layout? = some (.versioned lengths)) (h : m.Surveyed xs (.ok g)) :
    formatsTold m.codename xs = [g.format] := by
  cases h with
  | measured hq hl' h hmeasured =>
    cases hl.symm.trans hl'
    cases hmeasured with
    | known htold hlookup =>
      rw [formatsTold_append, formatsTold_of_location hq (h.completes_iff.2 rfl),
        htold.formatsTold]
      rfl

/-- The format is asked for last, so what comes before the last message is the location
query, and tells none. -/
theorem formatsTold_front (hq : m.codename.locationQuery? = some q)
    (hl : m.codename.layout? = some l) {r : Except Failure Geometry} {x : Exchange}
    (h : m.Surveyed (xs ++ [x]) r) : ManagementUnit.formatsTold m.codename xs = [] := by
  have hkeeps := h.keepsTo hq hl
  have hlast : (l.messages m.codename).length ≤ 1 := by
    cases l with
    | split => exact Nat.zero_le 1
    | versioned =>
      rw [Layout.messages]
      cases m.codename.formatMessage? <;> simp
  have hfront : xs.map Exchange.message <+: q.messages := by
    have hleading := hkeeps.leading
    have hlength := hleading.length_le
    rw [List.map_append, List.length_append, List.length_append] at hlength
    rw [List.map_append] at hleading
    refine List.prefix_of_prefix_length_le ((List.prefix_append _ _).trans hleading)
      (List.prefix_append _ _) ?_
    rw [List.map_singleton, List.length_singleton] at hlength
    omega
  refine formatsTold_eq_nil ?_
  intro y hy hformat
  exact (Codename.formatMessage?_spec hformat).2.2.2 q hq (hfront.subset (List.mem_map_of_mem hy))

/-- Where the table can be looked for, that fails over the last message, which no format
was told before: it failed, or it told a format of unknown length. -/
theorem broken (hq : m.codename.locationQuery? = some q) (hl : m.codename.layout? = some l)
    {f : Failure} (h : m.Surveyed xs (.error f)) :
    ∃ front x, ManagementUnit.formatsTold m.codename front = [] ∧
      (xs = front ++ [⟨x, .error f⟩] ∨
        ∃ words, xs = front ++ [⟨x, .ok words⟩] ∧ m.codename.formatMessage? = some x ∧
          m.codename.tableLength? words.word0 = none) := by
  obtain hlacking | ⟨front, x, rfl⟩ | ⟨-, -, front, x, words, rfl, hx, hunknown⟩ := h.halted
  · rw [hq, hl] at hlacking
    obtain hlacking | hlacking := hlacking <;> cases hlacking
  · exact ⟨front, x, h.formatsTold_front hq hl, .inl rfl⟩
  · exact ⟨front, x, h.formatsTold_front hq hl, .inr ⟨words, rfl, hx, hunknown⟩⟩

end Mailboxes.Surveyed

end Steps

end ManagementUnit
