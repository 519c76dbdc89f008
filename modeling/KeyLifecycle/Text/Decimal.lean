import KeyLifecycle.Text.Blank

/-! Decimal numerals: writing a natural number, and the value of a run of digits. -/
namespace KeyLifecycle.Text

def isDigit (c : Char) : Bool := '0' ≤ c && c ≤ '9'

def digitValue (c : Char) : Nat := c.toNat - 48

def digitChar (n : Nat) : Char := Char.ofNat (48 + n)

def digits (n : Nat) : List Char :=
  if n < 10 then [digitChar n] else digits (n / 10) ++ [digitChar (n % 10)]
decreasing_by omega

def padded (width n : Nat) : List Char :=
  List.replicate (width - (digits n).length) '0' ++ digits n

def numeralOnto (n : Nat) (ds : List Char) : Nat :=
  ds.foldl (fun v c => v * 10 + digitValue c) n

def numeralValue (ds : List Char) : Nat := numeralOnto 0 ds

theorem isDigit_digitChar (n : Nat) (h : n < 10) : isDigit (digitChar n) = true := by
  have : ∀ m : Fin 10, isDigit (digitChar m) = true := by decide
  exact this ⟨n, h⟩

theorem isBlank_of_isDigit {c : Char} (h : isDigit c = true) : isBlank c = false := by
  have bounds : 48 ≤ c.toNat ∧ c.toNat ≤ 57 := by
    simp only [isDigit, Bool.and_eq_true, decide_eq_true_eq, Char.le_def] at h
    exact h
  simp only [isBlank, Bool.or_eq_false_iff, Bool.and_eq_false_iff, decide_eq_false_iff_not,
    beq_eq_false_iff_ne]
  omega

theorem digitValue_digitChar (n : Nat) (h : n < 10) : digitValue (digitChar n) = n := by
  have : ∀ m : Fin 10, digitValue (digitChar m) = m := by decide
  exact this ⟨n, h⟩

theorem exists_digit_cons {ds : List Char} (digit : ∀ c ∈ ds, isDigit c = true) (hne : ds ≠ []) :
    ∃ c cs, ds = c :: cs ∧ isDigit c = true := by
  cases ds with
  | nil => exact absurd rfl hne
  | cons c cs => exact ⟨c, cs, rfl, digit c (List.mem_cons_self ..)⟩

theorem digits_isDigit (n : Nat) : ∀ c ∈ digits n, isDigit c = true := by
  fun_induction digits n with
  | case1 n h => simpa using isDigit_digitChar n h
  | case2 n h ih =>
    intro c hc
    rcases List.mem_append.1 hc with hc | hc
    · exact ih c hc
    · rw [List.mem_singleton.1 hc]
      exact isDigit_digitChar _ (Nat.mod_lt _ (by decide))

theorem numeralValue_digits (n : Nat) : numeralValue (digits n) = n := by
  fun_induction digits n with
  | case1 n h => simp [numeralValue, numeralOnto, digitValue_digitChar n h]
  | case2 n h ih =>
    simp only [numeralValue, numeralOnto] at ih
    simp only [numeralValue, numeralOnto, List.foldl_append, List.foldl_cons, List.foldl_nil, ih,
      digitValue_digitChar (n % 10) (Nat.mod_lt _ (by decide))]
    omega

theorem digits_ne_nil (n : Nat) : digits n ≠ [] := by
  fun_induction digits n <;> simp

theorem digits_ne_zero_cons (n : Nat) (c : Char) (cs : List Char) : digits n ≠ '0' :: c :: cs := by
  fun_induction digits n generalizing c cs with
  | case1 n _ => simp
  | case2 n hn ih =>
    intro h
    have value := numeralValue_digits (n / 10)
    cases hq : digits (n / 10) with
    | nil => exact digits_ne_nil _ hq
    | cons d ds =>
      rw [hq] at h value
      obtain ⟨rfl, hds⟩ := List.cons.inj h
      cases ds with
      | nil =>
        have zero : numeralValue ['0'] = 0 := by decide
        omega
      | cons d ds => exact ih d ds hq

theorem length_digits_le {width n : Nat} (hw : 0 < width) (h : n < Nat.pow 10 width) :
    (digits n).length ≤ width := by
  fun_induction digits n generalizing width with
  | case1 n _ => exact hw
  | case2 n hn ih =>
    obtain _ | _ | w := width
    · exact absurd hw (Nat.lt_irrefl 0)
    · exact absurd h hn
    · have quotient : n / 10 < Nat.pow 10 (w + 1) := (Nat.div_lt_iff_lt_mul (by decide)).2 h
      have := ih (Nat.succ_pos w) quotient
      simp only [List.length_append, List.length_singleton]
      omega

theorem length_padded {width n : Nat} (hw : 0 < width) (h : n < Nat.pow 10 width) :
    (padded width n).length = width := by
  have := length_digits_le hw h
  simp only [padded, List.length_append, List.length_replicate]
  omega

theorem padded_ne_nil (width n : Nat) : padded width n ≠ [] :=
  List.append_ne_nil_of_right_ne_nil _ (digits_ne_nil n)

theorem numeralValue_padded (width n : Nat) : numeralValue (padded width n) = n := by
  have zeros : ∀ k, numeralOnto 0 (List.replicate k '0') = 0 := by
    intro k
    induction k with
    | zero => rfl
    | succ k ih => simpa [List.replicate_succ, numeralOnto, digitValue] using ih
  have split := numeralValue_digits n
  simp only [numeralValue, numeralOnto, padded, List.foldl_append] at *
  rw [zeros]
  exact split

theorem padded_isDigit (width n : Nat) : ∀ c ∈ padded width n, isDigit c = true := by
  intro c hc
  rcases List.mem_append.1 hc with hc | hc
  · rw [List.eq_of_mem_replicate hc]; rfl
  · exact digits_isDigit n c hc

end KeyLifecycle.Text
