import Mathlib.Data.List.Forall2

/-!
# Traversals that stop at the first error

A loop that computes one value for each element of a list has a value for each of
them, or ends with the error of the first element that has none.
-/

namespace EmvaultCore.Library.Traversal

variable {Error Item Value : Type}

/-- The element at which a traversal stops, and what it stops with. -/
def FailsFirst (compute : Item → Except Error Value) (items : List Item) (cause : Error) : Prop :=
  ∃ before item after, items = before ++ item :: after ∧
    (∀ earlier ∈ before, ∃ value, compute earlier = .ok value) ∧ compute item = .error cause

theorem fails_first_cons {compute : Item → Except Error Value} {item : Item} {items : List Item}
    {value : Value} {cause : Error} (first : compute item = .ok value)
    (fails : FailsFirst compute items cause) : FailsFirst compute (item :: items) cause := by
  obtain ⟨before, failing, after, rfl, passed, failed⟩ := fails
  refine ⟨item :: before, failing, after, rfl, ?_, failed⟩
  intro earlier member
  cases List.mem_cons.mp member with
  | inl same => exact ⟨value, same ▸ first⟩
  | inr later => exact passed earlier later

theorem map_m_eq_ok {compute : Item → Except Error Value} {items : List Item}
    {values : List Value} :
    items.mapM compute = .ok values ↔
      List.Forall₂ (fun item value => compute item = .ok value) items values := by
  induction items generalizing values with
  | nil => simp [pure, Except.pure, eq_comm]
  | cons item items ih =>
      rw [List.mapM_cons, List.forall₂_cons_left_iff]
      cases first : compute item with
      | error cause => simp [bind, Except.bind]
      | ok value =>
          constructor
          · intro answer
            cases rest : items.mapM compute with
            | error cause => simp [rest, bind, Except.bind] at answer
            | ok others =>
                simp only [rest, bind, Except.bind, pure, Except.pure, Except.ok.injEq] at answer
                exact ⟨value, others, rfl, ih.mp rest, answer.symm⟩
          · intro matched
            obtain ⟨other, others, same, each, split⟩ := matched
            cases same
            rw [ih.mpr each, split]
            rfl

theorem map_m_cases (compute : Item → Except Error Value) (items : List Item) :
    (∃ values, items.mapM compute = .ok values ∧
        List.Forall₂ (fun item value => compute item = .ok value) items values) ∨
      ∃ cause, items.mapM compute = .error cause ∧ FailsFirst compute items cause := by
  induction items with
  | nil => exact .inl ⟨[], rfl, .nil⟩
  | cons item items ih =>
      rw [List.mapM_cons]
      cases first : compute item with
      | error cause =>
          exact .inr ⟨cause, rfl, [], item, items, rfl, by simp, first⟩
      | ok value =>
          cases ih with
          | inl passed =>
              obtain ⟨values, answer, each⟩ := passed
              rw [answer]
              exact .inl ⟨value :: values, rfl, .cons first each⟩
          | inr failed =>
              obtain ⟨cause, answer, fails⟩ := failed
              rw [answer]
              exact .inr ⟨cause, rfl, fails_first_cons first fails⟩

theorem partner_of_mem {relation : Item → Value → Prop} {items : List Item} {values : List Value}
    (each : List.Forall₂ relation items values) {item : Item} (member : item ∈ items) :
    ∃ value ∈ values, relation item value := by
  induction each with
  | nil => cases member
  | cons related rest ih =>
      cases List.mem_cons.mp member with
      | inl same => exact ⟨_, List.mem_cons_self, same ▸ related⟩
      | inr later =>
          obtain ⟨value, among, found⟩ := ih later
          exact ⟨value, List.mem_cons_of_mem _ among, found⟩

end EmvaultCore.Library.Traversal
