/-
  ManagementUnit.Proofs.Table.Lookup
  ────────────────────────────────
  Where in the uses of a table its geometry is found.

  The driver takes note of a geometry it has found.  A use looks the geometry up
  first, if it needs it at all, and nothing that comes after that takes such a
  note.  So what a table knows of its geometry can be read off the journal: it is
  the first one that was noted.

  Main results:
    * `Performed.lookup`   — a use begins with the lookup, or goes without.
    * `located_of_history` — a table knows the geometry that was noted first.
    * `shaped_of_history`  — its regions are those of the layout that it was found by.
-/
import ManagementUnit.Proofs.Table.Uses

namespace ManagementUnit

/-! ## §1. Notes of a geometry. -/

/-- The geometry that is noted. -/
def Event.located? : Event → Option Geometry
  | ⟨.note (.tableLocated g), _⟩ => some g
  | _ => none

/-- The geometry that is noted first. -/
def firstLocated? (es : List Event) : Option Geometry := es.findSome? Event.located?

theorem firstLocated?_append (es fs : List Event) :
    firstLocated? (es ++ fs) = (firstLocated? es).or (firstLocated? fs) := List.findSome?_append

theorem firstLocated?_eq_none_iff {es : List Event} :
    firstLocated? es = none ↔ ∀ e ∈ es, e.located? = none := List.findSome?_eq_none_iff

theorem Event.Inquiry.unlocated {e : Event} (h : e.Inquiry) : e.located? = none := by
  cases h with
  | read | write => rfl
  | @note d hd => cases d <;> first | rfl | cases hd

theorem unlocated_of_handling {e : Event} (h : e.request.isHandling = true) :
    e.located? = none := by
  rcases e with ⟨request, reply⟩
  cases Request.handling_of_isHandling h <;> rfl

theorem firstLocated?_of_inquiry {es : List Event} (h : ∀ e ∈ es, e.Inquiry) :
    firstLocated? es = none := firstLocated?_eq_none_iff.2 fun e he => (h e he).unlocated

theorem firstLocated?_of_handling {es : List Event} (h : ∀ e ∈ es, e.request.isHandling = true) :
    firstLocated? es = none :=
  firstLocated?_eq_none_iff.2 fun e he => unlocated_of_handling (h e he)

namespace TableReader

variable {m : Mailboxes} {t t' : TableReader} {es : List Event}

/-! ## §2. One use. -/

theorem LookedUp.located_eq {r : Except Failure Geometry} (h : LookedUp m t es r t') :
    t'.located? = t.located?.or (firstLocated? es) := by
  cases h with
  | known h =>
    rw [h]
    rfl
  | failed h hes =>
    rw [h, firstLocated?_of_inquiry hes]
    rfl
  | found h hes =>
    rw [h, firstLocated?_append, firstLocated?_of_inquiry hes]
    rfl

theorem Throttled.unlocated {r : Except Failure Bool} (h : Throttled m t es r t') :
    firstLocated? es = none :=
  firstLocated?_eq_none_iff.2 (h.forall_events (fun _ he => he.unlocated) rfl fun _ => rfl)

theorem Transferred.unlocated {r : Except Failure Unit} (h : Transferred m t es r t') :
    firstLocated? es = none :=
  firstLocated?_eq_none_iff.2 (h.forall_events (fun _ he => he.unlocated) rfl fun _ => rfl)

theorem Renewed.unlocated {g : Geometry} {r : Except Failure TableMapping}
    (h : Renewed m g t es r t') : firstLocated? es = none ∧ t'.located? = t.located? := by
  cases h with
  | untransferred h => exact ⟨h.unlocated, by rw [h.frame]⟩
  | mapped h hmap =>
    refine ⟨?_, ?_⟩
    · rw [firstLocated?_append, h.unlocated, firstLocated?_of_handling hmap.handling]
      rfl
    · rw [hmap.frame, h.frame]

theorem Closed.unlocated (h : Closed t es t') : firstLocated? es = none :=
  firstLocated?_eq_none_iff.2 (h.forall_events (fun _ _ => rfl) rfl)

/-- A use begins with looking the geometry up, or goes without it. -/
theorem Performed.lookup {operation : TableOperation} {outcome : TableOutcome}
    (h : Performed m t operation es outcome t') :
    (firstLocated? es = none ∧ t'.located? = t.located?) ∨
      ∃ fs gs r t₁, es = fs ++ gs ∧ LookedUp m t fs r t₁ ∧ firstLocated? gs = none ∧
        t'.located? = t₁.located? := by
  have hprepared : ∀ {room? es r t'}, Prepared m room? t es r t' →
      (firstLocated? es = none ∧ t'.located? = t.located?) ∨
        ∃ fs gs r t₁, es = fs ++ gs ∧ LookedUp m t fs r t₁ ∧ firstLocated? gs = none ∧
          t'.located? = t₁.located? := by
    intro room? es r t' h
    cases h with
    | closed => exact .inl ⟨rfl, rfl⟩
    | unlocated hopen h => exact .inr ⟨_, [], _, _, (List.append_nil _).symm, h, rfl, rfl⟩
    | short hopen h => exact .inr ⟨_, _, _, _, rfl, h, rfl, rfl⟩
    | renewed hopen h hroom hrenewed =>
      obtain ⟨hes, ht'⟩ := hrenewed.unlocated
      exact .inr ⟨_, _, _, _, rfl, h, hes, ht'⟩
  cases h with
  | geometry h => exact .inr ⟨_, [], _, _, (List.append_nil _).symm, h, rfl, rfl⟩
  | transfer h | transferIfDue h => exact .inl ⟨h.unlocated, by rw [h.frame]⟩
  | prepare h => exact hprepared h
  | close h => exact .inl ⟨h.unlocated, by rw [h.frame]⟩
  | read h =>
    cases h with
    | failed h => exact hprepared h
    | copied h hfs =>
      have hcopied := firstLocated?_of_handling (TableMapping.handling_of_copyInto hfs)
      obtain ⟨hes, ht'⟩ | ⟨fs, gs, r, t₁, rfl, hlookup, hgs, ht'⟩ := hprepared h
      · refine .inl ⟨?_, ht'⟩
        rw [firstLocated?_append, hes, hcopied]
        rfl
      · refine .inr ⟨fs, _, r, t₁, List.append_assoc _ _ _, hlookup, ?_, ht'⟩
        rw [firstLocated?_append, hgs, hcopied]
        rfl

theorem Performed.located_eq {operation : TableOperation} {outcome : TableOutcome}
    (h : Performed m t operation es outcome t') :
    t'.located? = t.located?.or (firstLocated? es) := by
  obtain ⟨hes, ht'⟩ | ⟨fs, gs, r, t₁, rfl, hlookup, hgs, ht'⟩ := h.lookup
  · rw [ht', hes, Option.or_none]
  · rw [ht', hlookup.located_eq, firstLocated?_append, hgs, Option.or_none]

/-! ## §3. All uses. -/

/-- A table knows the geometry that was noted first. -/
theorem located_of_history {us : List TableUse} (h : History perform t us t') :
    t'.located? = t.located?.or (firstLocated? (journal us)) := by
  -- what a use finds is kept only if nothing was known before it
  induction h with
  | nil => exact Option.or_none.symm
  | @cons t t' u us hu _ ih =>
    rw [ih, hu.performed.located_eq, Option.or_assoc, ← firstLocated?_append]
    rfl

end TableReader

/-! ## §4. Layouts. -/

/-- `layout.Shapes g`: the regions of `g` are as many and as long as the layout
says. -/
inductive Layout.Shapes : Layout → Geometry → Prop where
  | versioned {lengths : List (UInt32 × Nat)} {format : UInt32} {length : Nat}
      (base : PhysicalAddress) (h : lengths.lookup format = some length) :
      Shapes (.versioned lengths) ⟨⟨base, length⟩, none, format⟩
  | split (primary secondary : Nat) (base base' : PhysicalAddress) :
      Shapes (.split primary secondary) ⟨⟨base, primary⟩, some ⟨base', secondary⟩, 0⟩

theorem yields_shapes (m : Mailboxes) :
    m.tableGeometry.Yields m.window fun _ g =>
      ∃ layout, m.codename.layout? = some layout ∧ layout.Shapes g := by
  refine .require fun query hquery => ?_
  refine .require fun layout hlayout => ?_
  obtain ⟨b, hb⟩ := Codename.generalPurpose_of_locationQuery hquery
  refine (yields_runLocationQuery hb query).noting.bind ?_
  intro bs location _
  have hmeasure : (m.measure location layout).Yields m.window fun _ g => layout.Shapes g := by
    cases layout with
    | split primary secondary => exact .pure (.split primary secondary _ _)
    | versioned lengths =>
      refine (yields_tableFormat hb).noting.bind ?_
      intro _ format _
      cases hlength : lengths.lookup format with
      | none => exact .afterNote .fail
      | some length => exact .pure (.versioned _ hlength)
  refine hmeasure.bind ?_
  intro _ g hg
  exact .afterNote (.pure ⟨layout, hlayout, hg⟩)

namespace TableReader

/-- The regions of a table are those of the layout that it was found by. -/
theorem shaped_of_history {c : Codename} {interval : Duration} {us : List TableUse}
    {t' : TableReader} (h : History perform (fresh c interval) us t') :
    ∀ g, t'.located? = some g → ∃ u ∈ us, ∃ layout,
      u.call.mailboxes.codename.layout? = some layout ∧ layout.Shapes g := by
  refine h.invariant (P := fun t => ∀ g, t.located? = some g → ∃ u ∈ us, ∃ layout,
    u.call.mailboxes.codename.layout? = some layout ∧ layout.Shapes g) ?_ ?_
  · intro t u hmem hu ht g hg
    obtain ⟨-, hsame⟩ | ⟨fs, gs, r, t₁, -, hlookup, -, hsame⟩ := hu.performed.lookup
    · exact ht g (hsame ▸ hg)
    · rw [hsame] at hg
      cases hlookup with
      | known | failed => exact ht g hg
      | found hnone hes hreach =>
        cases hg
        obtain ⟨_, _, hshape⟩ := yields_shapes _ _ _ hreach
        exact ⟨u, hmem, hshape g rfl⟩
  · intro g hg
    cases hg

end TableReader
end ManagementUnit
