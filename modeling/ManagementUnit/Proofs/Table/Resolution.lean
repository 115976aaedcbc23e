/-
  ManagementUnit.Proofs.Table.Resolution
  ────────────────────────────────
  Which requests find the table, and which answers it is made of.

  Finding and measuring the table is a plan that the generation fixes: the messages of
  its location query, and behind them the format query if the length goes by the
  format.  The firmware settles how far the plan comes.  A failure is handed on as it
  is and ends the plan there, so that a geometry is found only behind a plan that was
  completed, and then its bases, its format and its length can be read off the answers.

  Main results:
    * `Surveyed.found`     — a geometry is made of the answers to the whole plan.
    * `Surveyed.halted`    — a failure is that of the last request, unless the plan is
      empty or the format is unknown.
    * `survey_on_plan`     — what finding the table asks of any firmware.
    * `lengths_agree`      — what is found is as long as the generation's lengths say.
-/
import ManagementUnit.Proofs.Table.Provenance
import ManagementUnit.Proofs.Table.Survey

namespace ManagementUnit

/-! ## §1. The plan of a generation. -/

namespace Codename

/-- What finding and measuring the table puts to the firmware if nothing fails.  That is
nothing at all on a generation that cannot be asked where its table lies, or whose table
has no known length. -/
def surveyPlan (c : Codename) : List Message :=
  match c.locationQuery?, c.layout? with
  | some q, some l => q.messages ++ l.messages c
  | _, _ => []

variable {c : Codename} {q : LocationQuery} {l : Layout}

theorem surveyPlan_eq (hq : c.locationQuery? = some q) (hl : c.layout? = some l) :
    c.surveyPlan = q.messages ++ l.messages c := by
  rw [surveyPlan, hq, hl]

theorem surveyPlan_of_lacking (h : c.locationQuery? = none ∨ c.layout? = none) :
    c.surveyPlan = [] := by
  obtain hq | hl := h
  · rw [surveyPlan, hq]
  · rw [surveyPlan, hl]
    cases c.locationQuery? <;> rfl

/-- All of it goes to the general purpose mailbox, which the generation has. -/
theorem mem_surveyPlan {x : Message} (hx : x ∈ c.surveyPlan) :
    x.channel = .rsmu ∧ ∃ b, c.registers? x.channel = some b := by
  have hall : ∀ c : Codename, ∀ x ∈ c.surveyPlan,
      x.channel = .rsmu ∧ (c.registers? x.channel).isSome = true := by
    intro c
    cases c <;> decide
  obtain ⟨hchannel, hregisters⟩ := hall c x hx
  exact ⟨hchannel, Option.isSome_iff_exists.1 hregisters⟩

example : matisse.surveyPlan = [⟨.rsmu, 0x06, .pair 1 1⟩, ⟨.rsmu, 0x08, .zero⟩] := rfl

end Codename

/-! ## §2. Plans, once more. -/

namespace Mailboxes.Pursued

variable {m : Mailboxes} {plan : List Message} {xs : List Exchange}

/-- A plan that is pursued to its end has an answer to its first message, and is pursued
to its end behind it. -/
theorem uncons {x : Message} {answers : List Arguments}
    (h : m.Pursued (x :: plan) xs (.ok answers)) :
    ∃ words rest ys, answers = words :: rest ∧ xs = ⟨x, .ok words⟩ :: ys ∧
      m.Pursued plan ys (.ok rest) := by
  generalize hr : Except.ok answers = r at h
  cases h with
  | lacking | failed => cases hr
  | @cons _ _ ys r words h =>
    cases r with
    | error => cases hr
    | ok rest =>
      cases hr
      exact ⟨words, rest, ys, rfl, rfl, h⟩

theorem nil_eq {answers : List Arguments} (h : m.Pursued [] xs (.ok answers)) :
    xs = [] ∧ answers = [] := by
  cases h
  exact ⟨rfl, rfl⟩

end Mailboxes.Pursued

/-- What keeps to a plan and fails somewhere fails at the end. -/
theorem KeepsTo.last_of_failed {plan : List Message} {xs front back : List Exchange} {x : Exchange}
    {f : Failure} (h : KeepsTo plan xs) (hxs : xs = front ++ x :: back)
    (hx : x.result = .error f) : back = [] := by
  rcases List.eq_nil_or_concat back with rfl | ⟨mid, last, rfl⟩
  · rfl
  · have hmem : x ∈ xs.dropLast := by
      rw [hxs, List.concat_eq_append, ← List.cons_append, ← List.append_assoc,
        List.dropLast_concat]
      exact List.mem_append_right _ List.mem_cons_self
    have hok := h.unfailing x hmem
    rw [hx] at hok
    cases hok

/-! ## §3. What is found. -/

/-- `Found c xs g`: the exchanges `xs` are the whole plan of the generation `c`, and the
geometry `g` is what their answers tell. -/
inductive Found (c : Codename) : List Exchange → Geometry → Prop where
  /-- One region.  Its base is the address in the first two words of one answer, its
  format the first word of the other. -/
  | versioned {opcode formatOpcode : UInt32} {lengths : List (UInt32 × Nat)} {length : Nat}
      (location format : Arguments) (hq : c.locationQuery? = some (.combined opcode))
      (hf : c.formatQuery? = some formatOpcode) (hl : c.layout? = some (.versioned lengths))
      (hlength : lengths.lookup format.word0 = some length) :
      Found c
        [⟨⟨.rsmu, opcode, .pair 1 1⟩, .ok location⟩, ⟨⟨.rsmu, formatOpcode, .zero⟩, .ok format⟩]
        ⟨⟨.ofHalves location.word0 location.word1, length⟩, none, format.word0⟩
  /-- Two regions.  Their bases are the first words of the second answer and of the last
  one. -/
  | split {primary secondary : Nat} (w₁ w₂ w₃ w₄ w₅ : Arguments)
      (hq : c.locationQuery? = some .split) (hl : c.layout? = some (.split primary secondary)) :
      Found c
        [⟨⟨.rsmu, 0x0A, .first 3⟩, .ok w₁⟩, ⟨⟨.rsmu, 0x0B, .first 3⟩, .ok w₂⟩,
          ⟨⟨.rsmu, 0x3D, .first 3⟩, .ok w₃⟩, ⟨⟨.rsmu, 0x0A, .first 5⟩, .ok w₄⟩,
          ⟨⟨.rsmu, 0x0B, .first 5⟩, .ok w₅⟩]
        ⟨⟨.ofWord w₂.word0, primary⟩, some ⟨.ofWord w₅.word0, secondary⟩, 0⟩

namespace Mailboxes

variable {m : Mailboxes} {xs ys : List Exchange} {q : LocationQuery} {l : Layout}

/-- Two regions of fixed length are measured without a request. -/
theorem Measured.fixed_eq {location : TableLocation} {primary secondary : Nat}
    {r : Except Failure Geometry} (h : m.Measured location (.split primary secondary) xs r) :
    xs = [] ∧
      r = .ok ⟨⟨location.bases.1, primary⟩, some ⟨location.bases.2, secondary⟩, 0⟩ := by
  cases h with
  | fixed => exact ⟨rfl, rfl⟩

/-- A geometry is made of the answers to the whole plan. -/
theorem Surveyed.found {g : Geometry} (h : m.Surveyed xs (.ok g)) : Found m.codename xs g := by
  cases h with
  | @measured q l xs ys answers _ hq hl h hmeasured =>
    cases Codename.query_fits hq hl with
    | versioned opcode lengths =>
      obtain ⟨location, _, _, rfl, rfl, hrest⟩ := h.uncons
      obtain ⟨rfl, rfl⟩ := hrest.nil_eq
      cases hmeasured with
      | known htold hlookup =>
        cases htold with
        | told hformat =>
          obtain ⟨formatOpcode, hf, rfl⟩ := Option.map_eq_some_iff.1 hformat
          exact .versioned location _ hq hf hl hlookup
    | split primary secondary =>
      obtain ⟨rfl, hg⟩ := hmeasured.fixed_eq
      obtain rfl := Except.ok.inj hg
      obtain ⟨w₁, _, _, rfl, rfl, h₁⟩ := h.uncons
      obtain ⟨w₂, _, _, rfl, rfl, h₂⟩ := h₁.uncons
      obtain ⟨w₃, _, _, rfl, rfl, h₃⟩ := h₂.uncons
      obtain ⟨w₄, _, _, rfl, rfl, h₄⟩ := h₃.uncons
      obtain ⟨w₅, _, _, rfl, rfl, h₅⟩ := h₄.uncons
      obtain ⟨rfl, rfl⟩ := h₅.nil_eq
      exact .split w₁ w₂ w₃ w₄ w₅ hq hl

/-- A failure is that of the last request, unless nothing is asked at all, or all of it
was and the format is unknown. -/
theorem Surveyed.halted {f : Failure} (h : m.Surveyed xs (.error f)) :
    (m.codename.locationQuery? = none ∨ m.codename.layout? = none) ∨
      (∃ front x, xs = front ++ [⟨x, .error f⟩]) ∨
        f = .unsupported ∧ Completes m.codename.surveyPlan xs ∧
          ∃ front x words, xs = front ++ [⟨x, .ok words⟩] ∧
            m.codename.formatMessage? = some x ∧ m.codename.tableLength? words.word0 = none := by
  cases h with
  | lacking h => exact .inl h
  | @unlocated q l _ _ hq hl h =>
    refine .inr (.inl (h.failed_last ?_))
    intro x hx
    refine (Codename.mem_surveyPlan ?_).2
    rw [Codename.surveyPlan_eq hq hl]
    exact List.mem_append_left _ hx
  | @measured q l xs ys answers _ hq hl h hmeasured =>
    have hplan := Codename.surveyPlan_eq hq hl
    cases hmeasured with
    | untold htold =>
      obtain ⟨x, hx⟩ := Codename.formatMessage?_of_versioned hl
      have hlast := htold.failed_last hx
        (Codename.mem_surveyPlan (by simp [hplan, Layout.messages, hx])).2
      exact .inr (.inl (failed_last_append hlast xs))
    | @unknown lengths _ format htold hlookup =>
      refine .inr (.inr ⟨rfl, ?_, ?_⟩)
      · rw [hplan]
        exact (h.completes_iff.2 rfl).append htold.completes
      · cases htold with
        | told hx =>
          refine ⟨xs, _, _, rfl, hx, ?_⟩
          rw [Codename.tableLength?, hl]
          exact hlookup

/-- Behind the answers to the location query it is the layout that counts. -/
theorem Surveyed.behind {r : Except Failure Geometry} (hq : m.codename.locationQuery? = some q)
    (hl : m.codename.layout? = some l) (hxs : Completes q.messages xs)
    (h : m.Surveyed (xs ++ ys) r) : ∃ location, m.Measured location l ys r := by
  generalize hall : xs ++ ys = zs at h
  cases h with
  | lacking hnone =>
    obtain hnone | hnone := hnone
    · cases hnone.symm.trans hq
    · cases hnone.symm.trans hl
  | unlocated hq' hl' h =>
    cases hq.symm.trans hq'
    -- what keeps to the query is not longer than it
    have hlonger := h.keepsTo.leading.length_le
    rw [← hall, List.map_append, hxs.whole, List.length_append, List.length_map] at hlonger
    have hys : ys = [] := List.eq_nil_of_length_eq_zero (by omega)
    rw [hys, List.append_nil] at hall
    subst hall
    cases h.completes_iff.1 hxs
  | @measured q' l' xs' ys' answers _ hq' hl' h hmeasured =>
    cases hq.symm.trans hq'
    cases hl.symm.trans hl'
    have hlength : xs.length = xs'.length := by
      have hwhole := congrArg List.length (hxs.whole.trans (h.completes_iff.2 rfl).whole.symm)
      rwa [List.length_map, List.length_map] at hwhole
    obtain ⟨rfl, rfl⟩ := List.append_inj hall hlength
    exact ⟨_, hmeasured⟩

end Mailboxes

/-! ## §4. What the firmware is asked. -/

/-- `OnPlan m es xs r`: finding the table puts the exchanges `xs` to the firmware, by the
events `es`, and comes to `r`. -/
structure OnPlan (m : Mailboxes) (es : List Event) (xs : List Exchange)
    (r : Except Failure Geometry) : Prop where
  conversation : Conversation m es xs
  /-- The requests are those of the plan, in order from the first one on. -/
  keepsTo : KeepsTo m.codename.surveyPlan xs
  /-- All of them go to the general purpose mailbox. -/
  channel : ∀ x ∈ xs, x.message.channel = .rsmu
  /-- A geometry is found only behind the whole plan, and is made of the answers. -/
  found : ∀ g, r = .ok g → Completes m.codename.surveyPlan xs ∧ Found m.codename xs g
  /-- A request that fails is the last one, and its failure is what it comes to. -/
  failed : ∀ front x back f, xs = front ++ x :: back → x.result = .error f →
    back = [] ∧ r = .error f
  /-- There is no other failure, except of an empty plan and of an unknown format. -/
  halted : ∀ f, r = .error f →
    (m.codename.locationQuery? = none ∨ m.codename.layout? = none) ∨
      (∃ front x, xs = front ++ [⟨x, .error f⟩]) ∨
        f = .unsupported ∧ Completes m.codename.surveyPlan xs ∧
          ∃ front x words, xs = front ++ [⟨x, .ok words⟩] ∧
            m.codename.formatMessage? = some x ∧ m.codename.tableLength? words.word0 = none
  /-- Where the plan is empty, nothing happens at all. -/
  lacking : m.codename.locationQuery? = none ∨ m.codename.layout? = none →
    es = [] ∧ r = .error .unsupported

namespace Mailboxes

variable {m : Mailboxes} {es : List Event} {xs : List Exchange} {r : Except Failure Geometry}

theorem Surveyed.onPlan (h : m.Surveyed xs r) : KeepsTo m.codename.surveyPlan xs ∧
    ∀ g, r = .ok g → Completes m.codename.surveyPlan xs := by
  have hlocated : ∀ {q l}, m.codename.locationQuery? = some q → m.codename.layout? = some l →
      KeepsTo m.codename.surveyPlan xs ∧
        ∀ g, r = .ok g → Completes m.codename.surveyPlan xs := by
    intro q l hq hl
    rw [Codename.surveyPlan_eq hq hl]
    refine ⟨h.keepsTo hq hl, ?_⟩
    rintro g rfl
    exact h.completes hq hl
  cases h with
  | lacking => exact ⟨.nil _, nofun⟩
  | unlocated hq hl | measured hq hl => exact hlocated hq hl

theorem reaches_lacking (hlacking : m.codename.locationQuery? = none ∨ m.codename.layout? = none)
    (h : m.tableGeometry.run.Reaches es r) : es = [] ∧ r = .error .unsupported := by
  unfold tableGeometry at h
  cases hq : m.codename.locationQuery? with
  | none =>
    rw [hq] at h
    exact Program.reaches_done_iff.1 h
  | some q =>
    rw [hlacking.resolve_left (by rw [hq]; nofun), hq] at h
    exact Program.reaches_done_iff.1 h

/-- A request that fails is the last one, and its failure is what comes of it. -/
theorem Surveyed.failed {front back : List Exchange} {x : Exchange} {f : Failure}
    (h : m.Surveyed xs r) (hsplit : xs = front ++ x :: back) (hx : x.result = .error f) :
    back = [] ∧ r = .error f := by
  obtain ⟨hkeeps, hcompletes⟩ := h.onPlan
  obtain rfl := hkeeps.last_of_failed hsplit hx
  have hmem : x ∈ xs := hsplit ▸ List.mem_append_right _ List.mem_cons_self
  have hincomplete : ¬ Completes m.codename.surveyPlan xs := by
    intro hall
    have hok := hall.unfailing x hmem
    rw [hx] at hok
    cases hok
  refine ⟨rfl, ?_⟩
  cases r with
  | ok g => exact absurd (hcompletes g rfl) hincomplete
  | error f' =>
    obtain hlacking | ⟨front', y, hlast⟩ | ⟨-, hall, -⟩ := h.halted
    · -- an empty plan has no request that could fail
      have hplan := hkeeps.leading.subset (List.mem_map_of_mem hmem)
      rw [Codename.surveyPlan_of_lacking hlacking] at hplan
      cases hplan
    · obtain ⟨-, hsame⟩ := List.append_inj' (hsplit.symm.trans hlast) rfl
      cases hsame
      cases hx
      rfl
    · exact absurd hall hincomplete

theorem reaches_onPlan (h : m.tableGeometry.run.Reaches es r) : ∃ xs, OnPlan m es xs r := by
  obtain ⟨xs, hxs, hsurveyed⟩ := converses_tableGeometry es r h
  obtain ⟨hkeeps, hcompletes⟩ := hsurveyed.onPlan
  refine ⟨xs, hxs, hkeeps, ?_, ?_, fun front x back f => hsurveyed.failed, ?_,
    fun hlacking => reaches_lacking hlacking h⟩
  · intro x hx
    exact (Codename.mem_surveyPlan (hkeeps.leading.subset (List.mem_map_of_mem hx))).1
  · rintro g rfl
    exact ⟨hcompletes g rfl, hsurveyed.found⟩
  · rintro f rfl
    exact hsurveyed.halted

end Mailboxes

/-- Whatever a platform answers, finding the table puts to the firmware nothing but the
plan of the generation, request by request until one fails. -/
theorem survey_on_plan {σ : Type} (platform : Platform σ) (s : σ) (m : Mailboxes) :
    ∃ xs, OnPlan m (m.tableGeometry.run.journal platform s) xs
      (m.tableGeometry.run.run platform s).1 :=
  Mailboxes.reaches_onPlan (Program.reaches_journal platform m.tableGeometry.run s)

/-! ## §5. How long what is found is. -/

/-- What it comes to to find a table whose format is `format`: a geometry of that format
if the generation has a length for it, and none otherwise. -/
structure SizedBy (c : Codename) (format : UInt32) (r : Except Failure Geometry) : Prop where
  isOk_iff : r.isOk = true ↔ (c.tableLength? format).isSome = true
  told : ∀ g, r = .ok g → g.format = format
  unknown : c.tableLength? format = none → r = .error .unsupported

namespace Mailboxes

variable {m : Mailboxes} {x : Message} {words : Arguments} {r : Except Failure Geometry}
  {lengths : List (UInt32 × Nat)} {location : TableLocation}

/-- What answers the format query tells the format. -/
theorem Told.answered {told : Except Failure UInt32} (h : m.Told [⟨x, .ok words⟩] told) :
    told = .ok words.word0 := by
  cases h with
  | told => rfl
  | failed _ hx =>
    obtain ⟨-, heq, -⟩ | heq := hx.single_error
    · cases heq
    · cases heq

/-- The two ways to look a length up agree on every format that is told. -/
theorem Measured.sizedBy (hl : m.codename.layout? = some (.versioned lengths))
    (h : m.Measured location (.versioned lengths) [⟨x, .ok words⟩] r) :
    SizedBy m.codename words.word0 r := by
  have hlength : ∀ format, m.codename.tableLength? format = lengths.lookup format := by
    intro format
    rw [Codename.tableLength?, hl]
    rfl
  cases h with
  | untold htold => cases htold.answered
  | unknown htold hlookup =>
    cases htold.answered
    rw [← hlength] at hlookup
    refine ⟨?_, ?_, fun _ => rfl⟩
    · rw [hlookup]
      exact Iff.rfl
    · intro g hg
      cases hg
  | known htold hlookup =>
    cases htold.answered
    rw [← hlength] at hlookup
    refine ⟨?_, ?_, ?_⟩
    · rw [hlookup]
      exact Iff.rfl
    · intro g hg
      cases hg
      rfl
    · intro hnone
      cases hnone.symm.trans hlookup

end Mailboxes

/-- Whatever a platform answers, what is found is as long as the generation says of its
format; where the length goes by the format, the answer to the format query settles
whether anything is found; and where it does not, nobody asks for the format. -/
theorem lengths_agree {σ : Type} (platform : Platform σ) (s : σ) (m : Mailboxes) :
    (∀ g, (m.tableGeometry.run.run platform s).1 = .ok g →
      m.codename.tableLength? g.format = some g.totalLength) ∧
    (∀ q lengths x located words, m.codename.locationQuery? = some q →
      m.codename.layout? = some (.versioned lengths) → m.codename.formatMessage? = some x →
      Completes q.messages located →
      Conversation m (m.tableGeometry.run.journal platform s) (located ++ [⟨x, .ok words⟩]) →
      SizedBy m.codename words.word0 (m.tableGeometry.run.run platform s).1) ∧
    ∀ primary secondary, m.codename.layout? = some (.split primary secondary) →
      (∀ format, m.codename.tableLength? format = some (primary + secondary)) ∧
      ∀ xs, Conversation m (m.tableGeometry.run.journal platform s) xs →
        ∀ y ∈ xs, m.codename.formatMessage? ≠ some y.message := by
  have hreach := Program.reaches_journal platform m.tableGeometry.run s
  generalize (m.tableGeometry.run.run platform s).1 = r at hreach ⊢
  generalize m.tableGeometry.run.journal platform s = es at hreach ⊢
  obtain ⟨xs, hxs, hsurveyed⟩ := converses_tableGeometry es r hreach
  refine ⟨?_, ?_, ?_⟩
  · rintro g rfl
    exact hsurveyed.tableLength?_eq
  · intro q lengths x located words hq hl hx hlocated hall
    rw [hxs.unique hall] at hsurveyed
    obtain ⟨location, hmeasured⟩ := hsurveyed.behind hq hl hlocated
    exact hmeasured.sizedBy hl
  · intro primary secondary hl
    refine ⟨?_, ?_⟩
    · intro format
      rw [Codename.tableLength?, hl]
      rfl
    · intro ys hys y hy hformat
      rw [hys.unique hxs] at hy
      have hplan := hsurveyed.onPlan.1.leading.subset (List.mem_map_of_mem hy)
      obtain ⟨-, -, -, hquery⟩ := Codename.formatMessage?_spec hformat
      cases hq : m.codename.locationQuery? with
      | none =>
        rw [Codename.surveyPlan_of_lacking (.inl hq)] at hplan
        cases hplan
      | some q =>
        rw [Codename.surveyPlan_eq hq hl, Layout.messages, List.append_nil] at hplan
        exact hquery q hq hplan

namespace Unread

open Simulation (World)

/-- The machine on which everything works is told a format that has a length. -/
theorem lengths_agree_sound : ∃ located words,
    Completes (LocationQuery.combined 0x06).messages located ∧
      Conversation mailboxes
        (mailboxes.tableGeometry.run.journal (World.platform firmware) sound)
        (located ++ [⟨⟨.rsmu, 0x08, .zero⟩, .ok words⟩]) ∧
      words.word0 = 0x00240902 ∧
      SizedBy .matisse 0x00240902
        (mailboxes.tableGeometry.run.run (World.platform firmware) sound).1 := by
  obtain ⟨-, hsized, -⟩ := lengths_agree (World.platform firmware) sound mailboxes
  obtain ⟨xs, hplan⟩ := Mailboxes.reaches_onPlan
    (Program.reaches_journal (World.platform firmware) mailboxes.tableGeometry.run sound)
  obtain ⟨-, hfound⟩ :=
    hplan.found ⟨⟨.ofHalves 0xDF100000 0, 0x514⟩, none, 0x00240902⟩ rfl
  generalize hg : (⟨⟨.ofHalves 0xDF100000 0, 0x514⟩, none, 0x00240902⟩ : Geometry) = g at hfound
  cases hfound with
  | split => cases congrArg Geometry.secondary? hg
  | versioned location format hq hf hl hlength =>
    cases hq
    cases hf
    have hformat : format.word0 = 0x00240902 := (congrArg Geometry.format hg).symm
    have hlocated : Completes (LocationQuery.combined 0x06).messages
        [⟨⟨.rsmu, 0x06, .pair 1 1⟩, .ok location⟩] := ⟨rfl, List.forall_mem_singleton.2 rfl⟩
    refine ⟨_, format, hlocated, hplan.conversation, hformat, ?_⟩
    rw [← hformat]
    exact hsized _ _ _ _ _ rfl rfl rfl hlocated hplan.conversation

end Unread
end ManagementUnit
