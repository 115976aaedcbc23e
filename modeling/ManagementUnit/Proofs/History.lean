/-
  ManagementUnit.Proofs.History
  ────────────────────────────────
  One thing with a state, used again and again.

  Whatever is kept between two uses is a state `τ`; a use is a call `κ`, a program
  on the state, and its outcome.  `uses` runs one call after the other on a
  platform and records each use with the events that happened meanwhile.  What is
  between two uses — time that passes, memory that is written, a bridge that breaks —
  is up to the platform as well: it answers out of a state that it can change as it
  likes.

  `History` says the same without a platform.  A fact about all histories is proved
  for one use and carries over by induction.

  `Answers` tells which replies a platform gives.  A program that can come to events
  which the platform answers so is run by it in just this way.

  Main results:
    * `history_uses`        — the uses on a platform are a history.
    * `map_call_uses`       — it has one use for each call.
    * `History.split`       — each use of a history begins where those before it ended.
    * `History.forall_uses` — what every use preserves, a history preserves, and so
      what comes with each use comes with every use of a history.
    * `latest?_concat`      — of a row of entries the latest of a kind counts.
    * `Answers.ofJournal`        — the journal of a program is what the platform
      answers.
    * `answers_uses`             — so is the journal of uses in a row.
    * `Answers.append_iff`       — events in a row lead through a state in between.
    * `Program.Reaches.answered` — what a program can come to under the replies of a
      platform is its run.
-/
import ManagementUnit.Platform

namespace ManagementUnit

/-! ## §1. Uses in a row. -/

/-- One use of something that is kept. -/
structure Use (κ ω τ : Type) where
  call : κ
  /-- What was asked of the platform meanwhile. -/
  events : List Event
  outcome : ω
  /-- What was kept afterwards. -/
  after : τ

variable {κ ω τ σ : Type}

/-- The uses that calls in a row come to on a platform. -/
def uses (perform : κ → StateT τ Program ω) (platform : Platform σ) :
    List κ → τ → σ → List (Use κ ω τ)
  | [], _, _ => []
  | call :: calls, t, s =>
    let p := (perform call).run t
    let ((outcome, after), s') := p.run platform s
    ⟨call, p.journal platform s, outcome, after⟩ :: uses perform platform calls after s'

/-- All that was asked of the platform during several uses, in order. -/
def journal (us : List (Use κ ω τ)) : List Event := us.flatMap Use.events

theorem journal_append (us vs : List (Use κ ω τ)) : journal (us ++ vs) = journal us ++ journal vs :=
  List.flatMap_append

/-- Two events in a row of uses, and what is before, between and after them. -/
theorem journal_split {before mid after : List (Use κ ω τ)} {u v : Use κ ω τ}
    {es fs front rest : List Event} {e e' : Event} (hu : u.events = es ++ e :: fs)
    (hv : v.events = front ++ e' :: rest) :
    journal (before ++ u :: (mid ++ v :: after)) =
      (journal before ++ es) ++ e ::
        ((fs ++ journal mid ++ front) ++ e' :: (rest ++ journal after)) := by
  simp only [journal, List.flatMap_append, List.flatMap_cons, hu, hv, List.append_assoc,
    List.cons_append]

/-- The program can come to this use of what is kept as `t`. -/
def Use.From (perform : κ → StateT τ Program ω) (t : τ) (u : Use κ ω τ) : Prop :=
  ((perform u.call).run t).Reaches u.events (u.outcome, u.after)

/-- A step followed by a packing up of its result. -/
theorem Program.reaches_packed {α β : Type} {x : StateT τ Program α} {f : α → β} {t t' : τ}
    {es : List Event} {b : β} (h : ((x >>= fun a => pure (f a)).run t).Reaches es (b, t')) :
    ∃ a, b = f a ∧ (x.run t).Reaches es (a, t') := by
  obtain ⟨fs, gs, ⟨a, t₁⟩, rfl, hx, hdone⟩ := Program.reaches_bind_iff.1 h
  obtain ⟨rfl, heq⟩ := Program.reaches_done_iff.1 hdone
  cases heq
  rw [List.append_nil]
  exact ⟨a, rfl, hx⟩

/-- Uses in a row, each of what the one before it left. -/
inductive History (perform : κ → StateT τ Program ω) : τ → List (Use κ ω τ) → τ → Prop where
  | nil (t : τ) : History perform t [] t
  | cons {t t' : τ} {u : Use κ ω τ} {us : List (Use κ ω τ)} :
      u.From perform t → History perform u.after us t' → History perform t (u :: us) t'

variable {perform : κ → StateT τ Program ω} {t t' : τ} {us before after : List (Use κ ω τ)}
  {u : Use κ ω τ}

/-- The uses on a platform are a history. -/
theorem history_uses (platform : Platform σ) (calls : List κ) (t : τ) (s : σ) :
    ∃ t', History perform t (uses perform platform calls t s) t' := by
  -- by induction on the calls, from what the first one leaves on both sides
  induction calls generalizing t s with
  | nil => exact ⟨t, .nil t⟩
  | cons call calls ih =>
    have hreach := Program.reaches_journal platform ((perform call).run t) s
    rcases hrun : ((perform call).run t).run platform s with ⟨⟨outcome, t₁⟩, s₁⟩
    rw [hrun] at hreach
    obtain ⟨t', hrest⟩ := ih t₁ s₁
    refine ⟨t', ?_⟩
    simp only [uses, hrun]
    exact .cons hreach hrest

/-- There is one use for each call, in the same order. -/
theorem map_call_uses (platform : Platform σ) (calls : List κ) (t : τ) (s : σ) :
    (uses perform platform calls t s).map Use.call = calls := by
  induction calls generalizing t s with
  | nil => rfl
  | cons call calls ih => exact congrArg (call :: ·) (ih _ _)

theorem call_mem_of_uses {platform : Platform σ} {calls : List κ} {s : σ}
    (hmem : u ∈ uses perform platform calls t s) : u.call ∈ calls := by
  have hcall : u.call ∈ (uses perform platform calls t s).map Use.call :=
    List.mem_map_of_mem hmem
  rwa [map_call_uses] at hcall

namespace History

theorem append_iff :
    History perform t (before ++ after) t' ↔
      ∃ t₁, History perform t before t₁ ∧ History perform t₁ after t' := by
  induction before generalizing t with
  | nil =>
    constructor
    · intro h
      exact ⟨t, .nil t, h⟩
    · rintro ⟨t₁, hnil, h⟩
      cases hnil
      exact h
  | cons v before ih =>
    constructor
    · intro h
      cases h with
      | cons hv h =>
        obtain ⟨t₁, hbefore, hafter⟩ := ih.1 h
        exact ⟨t₁, .cons hv hbefore, hafter⟩
    · rintro ⟨t₁, hbefore, hafter⟩
      cases hbefore with
      | cons hv hbefore => exact .cons hv (ih.2 ⟨t₁, hbefore, hafter⟩)

/-- Each use of a history begins where those before it ended, and those after it
begin where it ended. -/
theorem split (h : History perform t (before ++ u :: after) t') :
    ∃ t₁, History perform t before t₁ ∧ u.From perform t₁ ∧ History perform u.after after t' := by
  obtain ⟨t₁, hbefore, hafter⟩ := append_iff.1 h
  cases hafter with
  | cons hu hafter => exact ⟨t₁, hbefore, hu, hafter⟩

theorem concat (h : History perform t us t') (hu : u.From perform t') :
    History perform t (us ++ [u]) u.after :=
  append_iff.2 ⟨t', h, .cons hu (.nil u.after)⟩

/-- What every use preserves, a history preserves; and what each use comes with as
long as that holds, every use of the history comes with. -/
theorem forall_uses {P : τ → Prop} {Q : Use κ ω τ → Prop} (h : History perform t us t')
    (hstep : ∀ t, ∀ u ∈ us, u.From perform t → P t → P u.after ∧ Q u) (ht : P t) :
    P t' ∧ ∀ u ∈ us, Q u := by
  -- by induction on the history: `P` holds where each use begins
  induction h with
  | nil => exact ⟨ht, List.forall_mem_nil _⟩
  | cons hu _ ih =>
    obtain ⟨hafter, hq⟩ := hstep _ _ List.mem_cons_self hu ht
    obtain ⟨ht', hrest⟩ := ih (fun t v hv => hstep t v (List.mem_cons_of_mem _ hv)) hafter
    exact ⟨ht', List.forall_mem_cons.2 ⟨hq, hrest⟩⟩

theorem invariant {P : τ → Prop} (h : History perform t us t')
    (hstep : ∀ t, ∀ u ∈ us, u.From perform t → P t → P u.after) (ht : P t) : P t' :=
  (h.forall_uses (Q := fun _ => True) (fun t u hmem hu hp => ⟨hstep t u hmem hu hp, trivial⟩) ht).1

theorem forall_after {P : τ → Prop} (h : History perform t us t')
    (hstep : ∀ t, ∀ u ∈ us, u.From perform t → P t → P u.after) (ht : P t) :
    ∀ u ∈ us, P u.after :=
  (h.forall_uses (Q := fun u => P u.after)
    (fun t u hmem hu hp => ⟨hstep t u hmem hu hp, hstep t u hmem hu hp⟩) ht).2

end History

/-! ## §2. Rows that grow at the end. -/

/-- What the last entry of a row says of those that say anything. -/
def latest? {α β : Type} (f : α → Option β) (row : List α) : Option β := row.reverse.findSome? f

/-- One more entry takes the place of those before it, or says nothing. -/
theorem latest?_concat {α β : Type} (f : α → Option β) (row : List α) (x : α) :
    latest? f (row ++ [x]) = (f x).or (latest? f row) := by
  rw [latest?, List.reverse_append, List.reverse_singleton, List.singleton_append,
    List.findSome?_cons]
  cases f x <;> rfl

theorem filterMap_concat {α β : Type} (f : α → Option β) (row : List α) (x : α) :
    (row ++ [x]).filterMap f = row.filterMap f ++ (f x).toList := by
  rw [List.filterMap_append, List.filterMap_cons]
  cases f x <;> rfl

/-! ## §3. What a platform answers. -/

/-- `Answers platform s es s'`: asked for the requests of `es` in order, the
platform gives the replies of `es`, and goes from `s` to `s'`. -/
inductive Answers {σ : Type} (platform : Platform σ) : σ → List Event → σ → Prop where
  | nil (s : σ) : Answers platform s [] s
  | cons {r : Request} {s s' : σ} {es : List Event} :
      Answers platform (platform r s).2 es s' →
        Answers platform s (⟨r, (platform r s).1⟩ :: es) s'

namespace Answers

variable {σ α : Type} {platform : Platform σ}

/-- The journal of a program is what the platform answers. -/
theorem ofJournal (p : Program α) (s : σ) :
    Answers platform s (p.journal platform s) (p.run platform s).2 := by
  induction p generalizing s with
  | done a => exact .nil s
  | ask r k ih => exact .cons (ih _ _)

theorem uncons {e : Event} {es : List Event} {s s' : σ} (h : Answers platform s (e :: es) s') :
    e.reply = (platform e.request s).1 ∧ Answers platform (platform e.request s).2 es s' := by
  cases h with
  | cons h => exact ⟨rfl, h⟩

/-- Events in a row lead through a state in between. -/
theorem append_iff {es fs : List Event} {s s' : σ} :
    Answers platform s (es ++ fs) s' ↔
      ∃ mid, Answers platform s es mid ∧ Answers platform mid fs s' := by
  constructor
  · intro h
    induction es generalizing s with
    | nil => exact ⟨s, .nil s, h⟩
    | cons e es ih =>
      cases h with
      | cons h =>
        obtain ⟨mid, hes, hfs⟩ := ih h
        exact ⟨mid, .cons hes, hfs⟩
  · rintro ⟨mid, hes, hfs⟩
    induction hes with
    | nil => exact hfs
    | cons _ ih => exact .cons (ih hfs)

/-- What every request preserves, the platform preserves. -/
theorem invariant {P : σ → Prop} {es : List Event} {s s' : σ} (h : Answers platform s es s')
    (hstep : ∀ e ∈ es, ∀ s, P s → P (platform e.request s).2) (hs : P s) : P s' := by
  induction h with
  | nil => exact hs
  | cons _ ih =>
    refine ih (fun e he => hstep e (List.mem_cons_of_mem _ he)) ?_
    exact hstep _ List.mem_cons_self _ hs

end Answers

/-- The journal of uses in a row is what the platform answers. -/
theorem answers_uses {κ ω τ σ : Type} (perform : κ → StateT τ Program ω)
    (platform : Platform σ) (calls : List κ) (t : τ) (s : σ) :
    ∃ s', Answers platform s (journal (uses perform platform calls t s)) s' := by
  -- by induction on the calls, from what the first one leaves on both sides
  induction calls generalizing t s with
  | nil => exact ⟨s, .nil s⟩
  | cons call calls ih =>
    have hfirst : Answers platform s _ _ := .ofJournal ((perform call).run t) s
    obtain ⟨s', hrest⟩ := ih _ _
    exact ⟨s', Answers.append_iff.2 ⟨_, hfirst, hrest⟩⟩

/-- What a program can come to under the replies of a platform is its run, and the
platform answers from there on. -/
theorem Program.Reaches.answered {σ α : Type} {platform : Platform σ} {p : Program α}
    {es fs : List Event} {a : α} {s s' : σ} (h : p.Reaches es a)
    (hes : Answers platform s (es ++ fs) s') :
    p.journal platform s = es ∧ (p.run platform s).1 = a ∧
      Answers platform (p.run platform s).2 fs s' := by
  induction h generalizing s with
  | done a => exact ⟨rfl, rfl, hes⟩
  | @ask r k reply es a _ ih =>
    obtain ⟨hreply, hes⟩ := hes.uncons
    have hreply : reply = (platform r s).1 := hreply
    subst hreply
    obtain ⟨hjournal, hrun, hrest⟩ := ih hes
    exact ⟨congrArg _ hjournal, hrun, hrest⟩

end ManagementUnit
