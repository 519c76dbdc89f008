/-! White space as Unicode's White_Space property has it, and texts made of nothing else. -/
namespace KeyLifecycle.Text

def isBlank (c : Char) : Bool :=
  let n := c.toNat
  (9 ≤ n && n ≤ 13) || n == 0x20 || n == 0x85 || n == 0xA0 || n == 0x1680 ||
    (0x2000 ≤ n && n ≤ 0x200A) || n == 0x2028 || n == 0x2029 || n == 0x202F || n == 0x205F ||
    n == 0x3000

def trimStart (s : List Char) : List Char := s.dropWhile isBlank

def trim (s : List Char) : List Char := (trimStart (trimStart s).reverse).reverse

def isBlankText (s : String) : Bool := (trim s.toList).isEmpty

theorem trimStart_eq_nil_iff (s : List Char) : trimStart s = [] ↔ s.all isBlank = true := by
  induction s with
  | nil => simp [trimStart]
  | cons c r ih => cases h : isBlank c <;> simp_all [trimStart]

theorem all_trimStart (s : List Char) : (trimStart s).all isBlank = s.all isBlank := by
  induction s with
  | nil => rfl
  | cons c r ih => cases h : isBlank c <;> simp_all [trimStart]

theorem trim_eq_nil_iff (s : List Char) : trim s = [] ↔ s.all isBlank = true := by
  rw [trim, List.reverse_eq_nil_iff, trimStart_eq_nil_iff, List.all_reverse, all_trimStart]

def Nonblank (s : String) : Prop := ∃ c ∈ s.toList, isBlank c = false

theorem isBlankText_iff {s : String} : isBlankText s = true ↔ ¬ Nonblank s := by
  simp [isBlankText, trim_eq_nil_iff, Nonblank]

theorem isBlankText_eq_false_iff {s : String} : isBlankText s = false ↔ Nonblank s := by
  simp [isBlankText, trim_eq_nil_iff, Nonblank]

theorem trimStart_eq_self (s : List Char) (h : ∀ c, s.head? = some c → isBlank c = false) :
    trimStart s = s := by
  cases s with
  | nil => rfl
  | cons c r => simp [trimStart, h c rfl]

def Bare (s : List Char) : Prop :=
  ∀ c, s.head? = some c ∨ s.getLast? = some c → isBlank c = false

structure Trims (s t : List Char) : Prop where
  bare : Bare t
  padded : ∃ before after, before.all isBlank = true ∧ after.all isBlank = true ∧
    s = before ++ t ++ after

theorem Bare.reverse {s : List Char} (h : Bare s) : Bare s.reverse := by
  intro c hc
  rw [List.head?_reverse, List.getLast?_reverse] at hc
  exact h c hc.symm

theorem trimStart_append {before : List Char} (h : before.all isBlank = true) (s : List Char) :
    trimStart (before ++ s) = trimStart s :=
  List.dropWhile_append_of_pos (List.all_eq_true.1 h)

theorem exists_trimStart (s : List Char) :
    ∃ before, before.all isBlank = true ∧ s = before ++ trimStart s :=
  ⟨s.takeWhile isBlank, List.all_takeWhile, List.takeWhile_append_dropWhile.symm⟩

theorem head?_trimStart {s : List Char} {c : Char} (h : (trimStart s).head? = some c) :
    isBlank c = false := by
  have first := List.head?_dropWhile_not isBlank s
  rw [trimStart] at h
  rw [h] at first
  exact first

theorem Trims.trim_eq {s t : List Char} (h : Trims s t) : trim s = t := by
  obtain ⟨before, after, hb, ha, hs⟩ := h.padded
  cases t with
  | nil =>
    rw [trim_eq_nil_iff, hs]
    simp [hb, ha]
  | cons c r =>
    have front : trimStart s = c :: r ++ after := by
      rw [hs, List.append_assoc, trimStart_append hb]
      exact trimStart_eq_self _ fun d hd => h.bare d (.inl hd)
    have back : trimStart ((c :: r).reverse) = (c :: r).reverse :=
      trimStart_eq_self _ fun d hd => h.bare.reverse d (.inl hd)
    rw [trim, front, List.reverse_append, trimStart_append (by simpa using ha), back,
      List.reverse_reverse]

theorem bare_trim (s : List Char) : Bare (trim s) := by
  intro c hc
  rcases hc with hc | hc
  · -- What is left at the end is a part of what was left at the start, from its front on.
    obtain ⟨after, -, kept⟩ := exists_trimStart (trimStart s).reverse
    have whole : trimStart s = trim s ++ after.reverse := by
      rw [trim, ← List.reverse_append, ← kept, List.reverse_reverse]
    refine head?_trimStart (s := s) ?_
    rw [whole, List.head?_append, hc]
    rfl
  · rw [trim, List.getLast?_reverse] at hc
    exact head?_trimStart hc

theorem trims_trim (s : List Char) : Trims s (trim s) := by
  obtain ⟨before, hb, hs⟩ := exists_trimStart s
  obtain ⟨after, ha, kept⟩ := exists_trimStart (trimStart s).reverse
  refine ⟨bare_trim s, before, after.reverse, hb, by simpa using ha, ?_⟩
  rw [List.append_assoc, trim, ← List.reverse_append, ← kept, List.reverse_reverse, ← hs]

theorem trims_iff {s t : List Char} : Trims s t ↔ trim s = t :=
  ⟨Trims.trim_eq, fun h => h ▸ trims_trim s⟩

end KeyLifecycle.Text
