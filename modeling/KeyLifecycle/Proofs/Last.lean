namespace KeyLifecycle
variable {α : Type} {l : List α} {x r : α} {counts : α → Prop}

/-- It is in the list, and nothing that counts comes after it. -/
def Last (l : List α) (x : α) (counts : α → Prop) : Prop :=
  ∃ before after, l = before ++ x :: after ∧ ∀ y ∈ after, ¬ counts y

theorem Last.mem (h : Last l x counts) : x ∈ l := by
  obtain ⟨before, after, rfl, -⟩ := h
  simp

theorem not_last_nil : ¬ Last [] x counts := fun h => absurd h.mem List.not_mem_nil

theorem last_concat : Last (l ++ [r]) x counts ↔ x = r ∨ Last l x counts ∧ ¬ counts r := by
  constructor
  · rintro ⟨before, after, split, none⟩
    obtain rfl | ⟨front, last, rfl⟩ := after.eq_nil_or_concat
    · obtain ⟨-, same⟩ := List.append_inj' split rfl
      exact .inl (List.cons.inj same).1.symm
    · have cut : l ++ [r] = (before ++ x :: front) ++ [last] := by simpa using split
      obtain ⟨rfl, same⟩ := List.append_inj' cut rfl
      obtain rfl := (List.cons.inj same).1
      exact .inr ⟨⟨before, front, rfl, fun y hy => none y (by simp [hy])⟩, none r (by simp)⟩
  · rintro (rfl | ⟨⟨before, after, rfl, none⟩, other⟩)
    · exact ⟨l, [], rfl, by simp⟩
    · refine ⟨before, after ++ [r], by simp, fun y hy => ?_⟩
      obtain hy | hy := List.mem_append.1 hy
      · exact none y hy
      · rwa [List.mem_singleton.1 hy]

end KeyLifecycle
