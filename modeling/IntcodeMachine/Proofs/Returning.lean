/-! # Computations without a result

An operation of the machine may fail, and one made of several fails with the first
of them (`bind_eq_ok`).

A program need not end, so whatever runs one takes a number of steps that may be
tried and has no result if these are too few.  `Returns` leaves that number out: a
computation returns what it gives for some number of steps.  All computations of
the machine are `Steady`: a result does not change with more steps.  Two results of
a steady computation are therefore the same (`Steady.unique`), and a computation
followed by another one returns if both do (`Steady.returns_bind`).
-/
namespace IntcodeMachine

variable {α β : Type}

/-! ## Operations that may fail -/

theorem bind_eq_ok {ε : Type} {x : Except ε α} {f : α → Except ε β} {b : β} :
    (x >>= f) = .ok b ↔ ∃ a, x = .ok a ∧ f a = .ok b := by
  cases x with
  | error e => exact ⟨fun h => (nomatch h), fun ⟨_, h, _⟩ => (nomatch h)⟩
  | ok a => exact ⟨fun h => ⟨a, rfl, h⟩, fun ⟨_, h, hf⟩ => Except.ok.inj h ▸ hf⟩

theorem pure_eq_ok {ε : Type} {a b : α} : (pure a : Except ε α) = .ok b ↔ b = a :=
  ⟨fun h => (Except.ok.inj h).symm, fun h => h ▸ rfl⟩

theorem mapError_eq_ok {ε δ : Type} {x : Except ε α} {f : ε → δ} {a : α} :
    x.mapError f = .ok a ↔ x = .ok a := by
  cases x with
  | error e => exact ⟨fun h => (nomatch h), fun h => (nomatch h)⟩
  | ok b => exact ⟨fun h => congrArg _ (Except.ok.inj h), fun h => congrArg _ (Except.ok.inj h)⟩

/-- A list of results exists if every one of them does, and these are what it holds. -/
theorem mapM_eq_some_iff {f : α → Option β} {l : List α} {bs : List β} :
    l.mapM f = some bs ↔ l.map f = bs.map some := by
  induction l generalizing bs with
  | nil => cases bs <;> simp
  | cons a l ih =>
    have whole : (a :: l).mapM f = some bs ↔
        ∃ b, f a = some b ∧ ∃ more, l.mapM f = some more ∧ b :: more = bs := by
      simp [List.mapM_cons, Option.bind_eq_some_iff]
    rw [whole]
    constructor
    · rintro ⟨b, first, more, rest, rfl⟩
      rw [List.map_cons, first, ih.mp rest, List.map_cons]
    · intro results
      cases bs with
      | nil => cases results
      | cons b bs =>
        obtain ⟨first, rest⟩ := List.cons.inj results
        exact ⟨b, first, bs, ih.mpr rest, rfl⟩

theorem mapM_eq_some_map {f : α → Option β} {g : α → β} {l : List α}
    (h : ∀ a ∈ l, f a = some (g a)) : l.mapM f = some (l.map g) := by
  rw [mapM_eq_some_iff, List.map_map]
  exact List.map_congr_left h

/-- Likewise if the results are what the list holds. -/
theorem mapM_eq_some_self {f : α → Option α} {l : List α} (h : ∀ a ∈ l, f a = some a) :
    l.mapM f = some l := by
  rw [mapM_eq_some_map (g := id) h, List.map_id]

/-! ## Programs that need not end -/

/-- The computation gives this result if it may take enough steps. -/
def Returns (f : Nat → Option α) (a : α) : Prop := ∃ fuel, f fuel = some a

/-- A result of the computation does not change with more steps. -/
def Steady (f : Nat → Option α) : Prop := ∀ fuel a, f fuel = some a → f (fuel + 1) = some a

namespace Steady

variable {f : Nat → Option α}

theorem le (steady : Steady f) {k l : Nat} (h : k ≤ l) {a : α} (result : f k = some a) :
    f l = some a := by
  induction h with
  | refl => exact result
  | step _ ih => exact steady _ a ih

/-- **A computation returns at most one result.** -/
theorem unique (steady : Steady f) {a b : α} (ha : Returns f a) (hb : Returns f b) : a = b := by
  obtain ⟨k, ha⟩ := ha
  obtain ⟨l, hb⟩ := hb
  rcases Nat.le_total k l with h | h
  · exact Option.some.inj ((steady.le h ha).symm.trans hb)
  · exact Option.some.inj (ha.symm.trans (steady.le h hb))

theorem map (steady : Steady f) (g : α → β) : Steady fun fuel => (f fuel).map g := by
  intro fuel b h
  obtain ⟨a, ha, hb⟩ := Option.map_eq_some_iff.mp h
  exact Option.map_eq_some_iff.mpr ⟨a, steady fuel a ha, hb⟩

/-- A computation followed by another one that depends on its result. -/
theorem bind (steady : Steady f) {g : α → Nat → Option β} (then_ : ∀ a, Steady (g a)) :
    Steady fun fuel => (f fuel).bind fun a => g a fuel := by
  intro fuel b h
  obtain ⟨a, ha, hb⟩ := Option.bind_eq_some_iff.mp h
  exact Option.bind_eq_some_iff.mpr ⟨a, steady fuel a ha, then_ a fuel b hb⟩

/-- The two computations return if and only if the first returns and then the second. -/
theorem returns_bind (steady : Steady f) {g : α → Nat → Option β} (then_ : ∀ a, Steady (g a))
    {b : β} :
    Returns (fun fuel => (f fuel).bind fun a => g a fuel) b ↔
      ∃ a, Returns f a ∧ Returns (g a) b := by
  constructor
  · rintro ⟨fuel, h⟩
    obtain ⟨a, ha, hb⟩ := Option.bind_eq_some_iff.mp h
    exact ⟨a, ⟨fuel, ha⟩, fuel, hb⟩
  · rintro ⟨a, ⟨k, ha⟩, l, hb⟩
    -- Neither number need be enough for both, but their maximum is.
    refine ⟨max k l, Option.bind_eq_some_iff.mpr ⟨a, ?_, ?_⟩⟩
    · exact steady.le (Nat.le_max_left k l) ha
    · exact (then_ a).le (Nat.le_max_right k l) hb

end Steady

end IntcodeMachine
