import KeyLifecycle.Proofs.Except
import KeyLifecycle.Proofs.Json.Spelling
import KeyLifecycle.Settings.Environment
import Mathlib.Data.List.TakeWhile

namespace KeyLifecycle.Settings.Environment
open Text
open Json (IsDigits)
variable {s : List Char} {n : UInt64} {env : Environment}

def afterPlus : List Char → List Char
  | '+' :: r => r
  | s => s

/-- The text is a decimal numeral of the number, with or without a plus sign. -/
structure Denotes (s : List Char) (n : UInt64) : Prop where
  digits : IsDigits (afterPlus s)
  value : numeralValue (afterPlus s) = n.toNat

def leadingValue (s : List Char) : Nat := numeralValue ((afterPlus s).takeWhile isDigit)

/-- When a flaw is the one to report: digits that go past 64 bits count even if something else
follows them. -/
def NumberFlaw.Holds (s : List Char) : NumberFlaw → Prop
  | empty => s = []
  | tooLarge => Nat.pow 2 64 ≤ leadingValue s
  | invalidDigit => s ≠ [] ∧ leadingValue s < Nat.pow 2 64 ∧ ¬ IsDigits (afterPlus s)

theorem numeralOnto_nil (v : Nat) : numeralOnto v [] = v := rfl

theorem numeralOnto_cons (v : Nat) (c : Char) (ds : List Char) :
    numeralOnto v (c :: ds) = numeralOnto (v * 10 + digitValue c) ds := by
  simp only [numeralOnto, List.foldl_cons]

theorem le_numeralOnto (v : Nat) (ds : List Char) : v ≤ numeralOnto v ds := by
  induction ds generalizing v with
  | nil => exact Nat.le_refl v
  | cons c ds ih =>
    have step := ih (v * 10 + digitValue c)
    rw [numeralOnto_cons]
    omega

/-- The first digits decide whether there is room for the number, and what follows them whether it
is one. -/
theorem readDigits_eq (s : List Char) {v : Nat} (hv : v < Nat.pow 2 64) :
    readDigits v s =
      if Nat.pow 2 64 ≤ numeralOnto v (s.takeWhile isDigit) then .error .tooLarge
      else if s.dropWhile isDigit = [] then .ok (numeralOnto v (s.takeWhile isDigit))
      else .error .invalidDigit := by
  induction s generalizing v with
  | nil =>
    rw [List.takeWhile_nil, List.dropWhile_nil, numeralOnto_nil, readDigits,
      if_neg (Nat.not_le.2 hv), if_pos rfl]
  | cons c r ih =>
    cases hc : isDigit c with
    | false =>
      have other : ¬ isDigit c = true := Bool.eq_false_iff.1 hc
      rw [List.takeWhile_cons_of_neg other, List.dropWhile_cons_of_neg other, numeralOnto_nil,
        readDigits, if_neg other, if_neg (Nat.not_le.2 hv), if_neg (List.cons_ne_nil c r)]
    | true =>
      rw [List.takeWhile_cons_of_pos hc, List.dropWhile_cons_of_pos hc, numeralOnto_cons,
        readDigits, if_pos hc]
      by_cases small : v * 10 + digitValue c < Nat.pow 2 64
      · exact (if_pos small).trans (ih small)
      · have large : Nat.pow 2 64 ≤ numeralOnto (v * 10 + digitValue c) (r.takeWhile isDigit) :=
          Nat.le_trans (Nat.not_lt.1 small) (le_numeralOnto _ _)
        exact (if_neg small).trans (if_pos large).symm

theorem readNumber_eq (hs : s ≠ []) : readNumber s =
    if afterPlus s = [] then .error .invalidDigit
    else (readDigits 0 (afterPlus s)).map Nat.toUInt64 := by
  unfold readNumber
  split
  · exact absurd rfl hs
  · rfl
  · rename_i r hr
    have more : r ≠ [] := fun h => hr h
    exact (if_neg more).symm
  · rename_i unsigned
    have whole : afterPlus s = s := by
      unfold afterPlus
      split
      · exact absurd rfl (unsigned _)
      · rfl
    rw [whole, if_neg hs]

theorem map_readDigits (s : List Char) : (readDigits 0 (afterPlus s)).map Nat.toUInt64 =
    if Nat.pow 2 64 ≤ leadingValue s then .error .tooLarge
    else if (afterPlus s).dropWhile isDigit = [] then .ok (leadingValue s).toUInt64
    else .error .invalidDigit := by
  rw [readDigits_eq _ (by decide), leadingValue, numeralValue]
  split
  · rfl
  · split <;> rfl

theorem afterPlus_ne_nil (h : IsDigits (afterPlus s)) : s ≠ [] := by
  rintro rfl
  exact h.ne_nil rfl

theorem leadingValue_eq (h : IsDigits (afterPlus s)) :
    leadingValue s = numeralValue (afterPlus s) := by
  rw [leadingValue, List.takeWhile_eq_self_iff.2 h.digit]

theorem isDigits_iff : IsDigits (afterPlus s) ↔
    afterPlus s ≠ [] ∧ (afterPlus s).dropWhile isDigit = [] := by
  rw [List.dropWhile_eq_nil_iff]
  exact ⟨fun h => ⟨h.ne_nil, h.digit⟩, fun h => ⟨h.1, h.2⟩⟩

inductive ReadAs (s : List Char) : Except NumberFlaw UInt64 → Prop where
  | number (n : UInt64) (h : Denotes s n) : ReadAs s (.ok n)
  | flaw (f : NumberFlaw) (h : f.Holds s) : ReadAs s (.error f)

theorem readAs (s : List Char) : ReadAs s (readNumber s) := by
  by_cases hs : s = []
  · subst hs
    exact .flaw .empty rfl
  rw [readNumber_eq hs, map_readDigits]
  by_cases large : Nat.pow 2 64 ≤ leadingValue s
  · have more : afterPlus s ≠ [] := by
      intro h
      rw [leadingValue, h] at large
      exact absurd large (by decide)
    rw [if_neg more, if_pos large]
    exact .flaw .tooLarge large
  · have small : leadingValue s < Nat.pow 2 64 := Nat.not_le.1 large
    rw [if_neg large]
    by_cases digits : IsDigits (afterPlus s)
    · obtain ⟨more, whole⟩ := isDigits_iff.1 digits
      rw [if_neg more, if_pos whole]
      have value : (leadingValue s).toUInt64.toNat = leadingValue s := Nat.mod_eq_of_lt small
      exact .number _ ⟨digits, (value.trans (leadingValue_eq digits)).symm⟩
    · have flaw : ReadAs s (.error .invalidDigit) := .flaw _ ⟨hs, small, digits⟩
      by_cases more : afterPlus s = []
      · rwa [if_pos more]
      · have left : (afterPlus s).dropWhile isDigit ≠ [] :=
          fun whole => digits (isDigits_iff.2 ⟨more, whole⟩)
        rwa [if_neg more, if_neg left]

theorem Denotes.unique {m : UInt64} (h : Denotes s n) (h' : Denotes s m) : n = m :=
  UInt64.toNat_inj.1 (h.value.symm.trans h'.value)

theorem NumberFlaw.Holds.not_denotes {f : NumberFlaw} (h : f.Holds s) : ¬ Denotes s n := by
  intro number
  cases f with
  | empty => exact afterPlus_ne_nil number.digits h
  | tooLarge =>
    have value := (leadingValue_eq number.digits).trans number.value
    have small : n.toNat < Nat.pow 2 64 := n.toNat_lt
    exact absurd (value ▸ small) (Nat.not_lt.2 h)
  | invalidDigit => exact h.2.2 number.digits

theorem not_large_nil : ¬ Nat.pow 2 64 ≤ leadingValue [] := by decide

theorem NumberFlaw.Holds.unique {f g : NumberFlaw} (h : f.Holds s) (h' : g.Holds s) : f = g := by
  cases f <;> cases g
  case empty.empty | tooLarge.tooLarge | invalidDigit.invalidDigit => rfl
  case empty.tooLarge =>
    obtain rfl : s = [] := h
    exact absurd h' not_large_nil
  case tooLarge.empty =>
    obtain rfl : s = [] := h'
    exact absurd h not_large_nil
  case empty.invalidDigit => exact absurd h h'.1
  case invalidDigit.empty => exact absurd h' h.1
  case tooLarge.invalidDigit => exact absurd h (Nat.not_le.2 h'.2.1)
  case invalidDigit.tooLarge => exact absurd h' (Nat.not_le.2 h.2.1)

theorem readNumber_eq_ok_iff : readNumber s = .ok n ↔ Denotes s n := by
  have read := readAs s
  constructor
  · intro h
    rw [h] at read
    cases read with
    | number n number => exact number
  · intro number
    cases h : readNumber s with
    | error f =>
      rw [h] at read
      cases read with
      | flaw f holds => exact absurd number holds.not_denotes
    | ok m =>
      rw [h] at read
      cases read with
      | number m number' => rw [number'.unique number]

theorem readNumber_eq_error_iff {f : NumberFlaw} : readNumber s = .error f ↔ f.Holds s := by
  have read := readAs s
  constructor
  · intro h
    rw [h] at read
    cases read with
    | flaw f holds => exact holds
  · intro holds
    cases h : readNumber s with
    | error g =>
      rw [h] at read
      cases read with
      | flaw g holds' => rw [holds'.unique holds]
    | ok m => exact absurd (readNumber_eq_ok_iff.1 h) holds.not_denotes

def flagText : Bool → String
  | true => "true"
  | false => "false"

theorem readFlag_eq_some_iff {b : Bool} : readFlag s = some b ↔ s = (flagText b).toList := by
  unfold readFlag
  have yes : (flagText true).toList = ['t', 'r', 'u', 'e'] := by decide
  have no : (flagText false).toList = ['f', 'a', 'l', 's', 'e'] := by decide
  cases b <;> grind

/-- What a variable says: nothing but its default where it is not set, and otherwise what its value
means without the white space around it. -/
def Says {α : Type} (means : List Char → α → Prop) (standard : α) : Option String → α → Prop
  | none, a => a = standard
  | some value, a => ∃ core, Trims value.toList core ∧ means core a

structure Tells (env : Environment) (s : Settings) : Prop where
  useDuration : Says Denotes ({} : Settings).defaultUseDuration env.useDuration s.defaultUseDuration
  clearDefault : Says (fun core b => core = (flagText b).toList)
    ({} : Settings).clearPreviousDefault env.clearDefault s.clearPreviousDefault

/-- When a flaw is the one to report: the flag counts only where the duration is as it should be. -/
def Flaw.Holds (env : Environment) : Flaw → Prop
  | useDuration value flaw => env.useDuration = some value ∧
      ∃ core, Trims value.toList core ∧ flaw.Holds core
  | clearDefault value => (∃ n, Says Denotes ({} : Settings).defaultUseDuration env.useDuration n) ∧
      env.clearDefault = some value ∧
      ∃ core, Trims value.toList core ∧ ∀ b, core ≠ (flagText b).toList

theorem exists_trims {value : String} {p : List Char → Prop} :
    (∃ core, Trims value.toList core ∧ p core) ↔ p (trim value.toList) := by
  simp only [trims_iff, exists_eq_left']

theorem useDuration?_set {value : String} (h : env.useDuration = some value) :
    env.useDuration? = (readNumber (trim value.toList)).mapError (Flaw.useDuration value) := by
  simp only [useDuration?, h]
  cases readNumber (trim value.toList) <;> rfl

theorem useDuration?_eq_ok_iff : env.useDuration? = .ok n ↔
    Says Denotes ({} : Settings).defaultUseDuration env.useDuration n := by
  cases h : env.useDuration with
  | none =>
    rw [useDuration?, h]
    exact ⟨fun h => (Except.ok.inj h).symm, fun h => congrArg _ h.symm⟩
  | some value => rw [useDuration?_set h, mapError_eq_ok, readNumber_eq_ok_iff, Says, exists_trims]

theorem useDuration?_eq_error_iff {flaw : Flaw} : env.useDuration? = .error flaw ↔
    ∃ value f, flaw = .useDuration value f ∧ (Flaw.useDuration value f).Holds env := by
  cases h : env.useDuration with
  | none => simp [useDuration?, h, Flaw.Holds]
  | some value =>
    rw [useDuration?_set h, mapError_eq_error]
    simp only [readNumber_eq_error_iff]
    constructor
    · rintro ⟨f, holds, rfl⟩
      exact ⟨value, f, rfl, h, exists_trims.2 holds⟩
    · rintro ⟨value', f, rfl, h', holds⟩
      obtain rfl := Option.some.inj (h.symm.trans h')
      exact ⟨f, exists_trims.1 holds, rfl⟩

theorem clearDefault?_set {value : String} (h : env.clearDefault = some value) :
    env.clearDefault? =
      (readFlag (trim value.toList)).elim (.error (.clearDefault value)) .ok := by
  simp only [clearDefault?, h]
  cases readFlag (trim value.toList) <;> rfl

theorem clearDefault?_eq_ok_iff {b : Bool} : env.clearDefault? = .ok b ↔
    Says (fun core b => core = (flagText b).toList) ({} : Settings).clearPreviousDefault
      env.clearDefault b := by
  cases h : env.clearDefault with
  | none =>
    rw [clearDefault?, h]
    exact ⟨fun h => (Except.ok.inj h).symm, fun h => congrArg _ h.symm⟩
  | some value =>
    rw [clearDefault?_set h, Says, exists_trims, ← readFlag_eq_some_iff]
    cases readFlag (trim value.toList) <;> simp

theorem clearDefault?_eq_error_iff {flaw : Flaw} : env.clearDefault? = .error flaw ↔
    ∃ value, flaw = .clearDefault value ∧ env.clearDefault = some value ∧
      ∃ core, Trims value.toList core ∧ ∀ b, core ≠ (flagText b).toList := by
  cases h : env.clearDefault with
  | none => simp [clearDefault?, h]
  | some value =>
    rw [clearDefault?_set h]
    constructor
    · intro refused
      cases read : readFlag (trim value.toList) with
      | some b =>
        rw [read] at refused
        cases refused
      | none =>
        rw [read] at refused
        refine ⟨value, (Except.error.inj refused).symm, rfl, exists_trims.2 fun b text => ?_⟩
        rw [readFlag_eq_some_iff.2 text] at read
        cases read
    · rintro ⟨value', rfl, set, bad⟩
      obtain rfl := Option.some.inj set
      have unread : readFlag (trim value.toList) = none :=
        Option.eq_none_iff_forall_ne_some.2 fun b read =>
          exists_trims.1 bad b (readFlag_eq_some_iff.1 read)
      rw [unread]
      rfl

theorem settings_eq_error_iff {flaw : Flaw} : env.settings = .error flaw ↔ flaw.Holds env := by
  have first : env.settings = .error flaw ↔ env.useDuration? = .error flaw ∨
      ∃ n, env.useDuration? = .ok n ∧ env.clearDefault? = .error flaw := by
    simp only [Environment.settings, bind_eq_error, pure_eq_ok, reduceCtorEq, and_false,
      exists_false, or_false]
  rw [first, useDuration?_eq_error_iff, clearDefault?_eq_error_iff]
  simp only [useDuration?_eq_ok_iff]
  cases flaw with
  | useDuration value f =>
    simp only [Flaw.useDuration.injEq, reduceCtorEq, false_and, exists_false, and_false, or_false]
    constructor
    · rintro ⟨_, _, ⟨rfl, rfl⟩, holds⟩
      exact holds
    · exact fun holds => ⟨value, f, ⟨rfl, rfl⟩, holds⟩
  | clearDefault value => simp [Flaw.Holds]

theorem settings_eq_ok_iff {settings : Settings} :
    env.settings = .ok settings ↔ env.Tells settings := by
  simp only [Environment.settings, bind_eq_ok, useDuration?_eq_ok_iff, clearDefault?_eq_ok_iff]
  constructor
  · rintro ⟨n, hn, b, hb, h⟩
    cases h
    exact ⟨hn, hb⟩
  · intro h
    exact ⟨_, h.useDuration, _, h.clearDefault, rfl⟩

theorem exists_says {α : Type} {means : List Char → α → Prop} (standard : α)
    {set? : Option String} : (∃ a, Says means standard set? a) ↔
      ∀ value ∈ set?, ∃ core a, Trims value.toList core ∧ means core a := by
  cases set? with
  | none =>
    constructor
    · rintro - _ h
      cases h
    · intro _
      exact ⟨standard, rfl⟩
  | some value =>
    constructor
    · rintro ⟨a, core, trims, means⟩ _ h
      obtain rfl := Option.some.inj h
      exact ⟨core, a, trims, means⟩
    · intro h
      obtain ⟨core, a, trims, means⟩ := h value rfl
      exact ⟨a, core, trims, means⟩

theorem denotes_digits (n : UInt64) : Denotes (digits n.toNat) n := by
  have numeral : IsDigits (digits n.toNat) := ⟨digits_ne_nil _, digits_isDigit _⟩
  have unsigned : afterPlus (digits n.toNat) = digits n.toNat := by
    obtain ⟨c, r, h, digit⟩ := exists_digit_cons numeral.digit numeral.ne_nil
    have other : c ≠ '+' := by
      rintro rfl
      cases digit
    rw [h]
    unfold afterPlus
    split
    · rename_i same
      exact absurd (List.cons.inj same).1 other
    · rfl
  exact ⟨unsigned.symm ▸ numeral, unsigned.symm ▸ numeralValue_digits _⟩

theorem trims_digits (n : Nat) {before after : List Char} (hb : before.all isBlank = true)
    (ha : after.all isBlank = true) : Trims (before ++ digits n ++ after) (digits n) where
  bare c hc := by
    refine isBlank_of_isDigit (digits_isDigit n c ?_)
    rcases hc with hc | hc
    · exact List.mem_of_head? hc
    · exact List.mem_of_getLast? hc
  padded := ⟨before, after, hb, ha, rfl⟩

/-- White space around the decimal text of a number makes no difference to what it says. -/
theorem settings_padded (clear : Option String) (n : UInt64) {before after : List Char}
    (hb : before.all isBlank = true) (ha : after.all isBlank = true) :
    settings ⟨some (String.ofList (before ++ digits n.toNat ++ after)), clear⟩ =
      (settings ⟨none, clear⟩).map fun s => { s with defaultUseDuration := n } := by
  have trims : Trims (String.ofList (before ++ digits n.toNat ++ after)).toList
      (digits n.toNat) := by
    rw [String.toList_ofList]
    exact trims_digits _ hb ha
  have read : useDuration? ⟨some (String.ofList (before ++ digits n.toNat ++ after)), clear⟩ =
      .ok n := useDuration?_eq_ok_iff.2 ⟨_, trims, denotes_digits n⟩
  have unset : useDuration? ⟨none, clear⟩ = .ok standardUseDuration := rfl
  rw [settings, settings, read, unset]
  simp only [ok_bind, clearDefault?]
  split
  · rfl
  · split <;> rfl

/-- The settings can be had just when each variable that is set has a value of its kind, and they
are what the variables say. Otherwise the duration is complained of before the flag, with the value
as it stands and what is wrong with it. -/
theorem settings_classified (env : Environment) :
    ((∃ s, env.settings = .ok s) ↔
      (∀ value ∈ env.useDuration, ∃ core n, Trims value.toList core ∧ Denotes core n) ∧
      ∀ value ∈ env.clearDefault, ∃ core b,
        Trims value.toList core ∧ core = (flagText b).toList) ∧
    (∀ s, env.settings = .ok s ↔ env.Tells s) ∧
    (∀ flaw, env.settings = .error flaw ↔ flaw.Holds env) ∧
    (∀ value flaw, (Flaw.useDuration value flaw).toError = .detailed .invalidConfig
      ("invalid KEYPAIR_DEFAULT_USE_DURATION '" ++ value ++ "': " ++ flaw.reason)) ∧
    (∀ value, (Flaw.clearDefault value).toError = .detailed .invalidConfig
      ("invalid KEYPAIR_CLEAR_PREVIOUS_DEFAULT '" ++ value ++ "': provided string was not " ++
        Json.ticked "true" ++ " or " ++ Json.ticked "false")) ∧
    ∀ (n : UInt64) (before after : List Char),
      before.all isBlank = true → after.all isBlank = true →
      settings ⟨some (String.ofList (before ++ digits n.toNat ++ after)), env.clearDefault⟩ =
        (settings ⟨none, env.clearDefault⟩).map fun s => { s with defaultUseDuration := n } := by
  refine ⟨?_, fun s => settings_eq_ok_iff, fun flaw => settings_eq_error_iff, fun _ _ => rfl,
    fun _ => rfl, fun n before after => settings_padded env.clearDefault n⟩
  simp only [settings_eq_ok_iff]
  rw [← exists_says ({} : Settings).defaultUseDuration,
    ← exists_says ({} : Settings).clearPreviousDefault]
  constructor
  · rintro ⟨s, tells⟩
    exact ⟨⟨_, tells.useDuration⟩, _, tells.clearDefault⟩
  · rintro ⟨⟨n, useDuration⟩, b, clearDefault⟩
    exact ⟨⟨n, b⟩, useDuration, clearDefault⟩

/-- Zeros at the front do not count, and a number that is too large is told from what is no number
even if there is more behind it. -/
theorem settings_classified_spaced :
    let good : Environment := ⟨some "\u00a0+0086400000\n", some "\tfalse"⟩
    let bad : Environment := ⟨some " 18446744073709551616 ms", some "no"⟩
    (good.settings = .ok ⟨86400000, false⟩ ∧ good.Tells ⟨86400000, false⟩ ∧
      ∀ value ∈ good.clearDefault, ∃ core b,
        Trims value.toList core ∧ core = (flagText b).toList) ∧
    (bad.settings = .error (.useDuration " 18446744073709551616 ms" .tooLarge) ∧
      (Flaw.useDuration " 18446744073709551616 ms" .tooLarge).Holds bad) ∧
    [' '].all isBlank = true ∧ ['\n'].all isBlank = true ∧
    settings ⟨some (String.ofList ([' '] ++ digits (7 : UInt64).toNat ++ ['\n'])), none⟩ =
      (settings ⟨none, none⟩).map fun s => { s with defaultUseDuration := 7 } := by
  intro good bad
  have numeral : Denotes (trim "\u00a0+0086400000\n".toList) 86400000 :=
    ⟨isDigits_iff.2 ⟨by decide, by decide⟩, by decide⟩
  have told : good.Tells ⟨86400000, false⟩ :=
    ⟨⟨_, trims_trim _, numeral⟩, _, trims_trim _, by decide⟩
  have large : Nat.pow 2 64 ≤ leadingValue (trim " 18446744073709551616 ms".toList) := by decide
  have holds : (Flaw.useDuration " 18446744073709551616 ms" .tooLarge).Holds bad :=
    ⟨rfl, _, trims_trim _, large⟩
  obtain ⟨accepts, tells, -⟩ := settings_classified good
  obtain ⟨-, -, flaws, -⟩ := settings_classified bad
  obtain ⟨-, -, -, -, -, padded⟩ := settings_classified {}
  have read := (tells _).2 told
  exact ⟨⟨read, told, (accepts.1 ⟨_, read⟩).2⟩, ⟨(flaws _).2 holds, holds⟩,
    by decide, by decide, padded 7 [' '] ['\n'] (by decide) (by decide)⟩

end KeyLifecycle.Settings.Environment
