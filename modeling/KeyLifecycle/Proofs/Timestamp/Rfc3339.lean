import KeyLifecycle.Timestamp.Rfc3339

/-! An instant is read back from its text. Each part of the text is taken off the front by the
reader of that part, whatever follows. -/
namespace KeyLifecycle.Timestamp
open Text

namespace Reader
variable {α β : Type} {s s' : List Char}

theorem bind_eq {m : Reader α} {a : α} (h : m s = some (a, s')) (f : α → Reader β) :
    (m >>= f) s = f a s' := by
  simp [bind, StateT.bind, h]

theorem map_eq {m : Reader α} {a : α} (h : m s = some (a, s')) (f : α → β) :
    (f <$> m) s = some (f a, s') := by
  simp [Functor.map, StateT.map, h]

theorem get_bind (f : List Char → Reader β) : (get >>= f) s = f s s := rfl

theorem blanks_eq {c : Char} (h : isBlank c = false) (r : List Char) :
    blanks (c :: r) = some ((), c :: r) := by
  have : trimStart (c :: r) = c :: r := trimStart_eq_self _ (by simpa using h)
  exact congrArg (fun s => some ((), s)) this

theorem mark_eq {c : Char} (h : isBlank c = false) (r : List Char) :
    mark c (c :: r) = some ((), r) := by
  rw [mark, bind_eq (blanks_eq h r)]
  simp [literal]

section Digits
variable {ds : List Char} (digit : ∀ c ∈ ds, isDigit c = true)
include digit

theorem digitRun_length (hne : ds ≠ []) (r : List Char) :
    digitRun (some ds.length) (ds ++ r) = some (ds, r) := by
  have run : (ds ++ r).takeWhile isDigit = ds ++ r.takeWhile isDigit :=
    List.takeWhile_append_of_pos digit
  simp [digitRun, run, hne]

theorem digitRun_all (hne : ds ≠ []) {c : Char} (hc : isDigit c = false) (r : List Char) :
    digitRun none (ds ++ c :: r) = some (ds, c :: r) := by
  have run : (ds ++ c :: r).takeWhile isDigit = ds := by
    rw [List.takeWhile_append_of_pos digit]
    simp [hc]
  simp [digitRun, run, hne]

end Digits

theorem digitRun_padded {width n : Nat} (hw : 0 < width) (h : n < Nat.pow 10 width)
    (r : List Char) :
    digitRun (some width) (padded width n ++ r) = some (padded width n, r) := by
  have run := digitRun_length (padded_isDigit width n) (padded_ne_nil width n) r
  rwa [length_padded hw h] at run

theorem blanks_padded (width n : Nat) (r : List Char) :
    blanks (padded width n ++ r) = some ((), padded width n ++ r) := by
  obtain ⟨c, cs, hcs, hc⟩ := exists_digit_cons (padded_isDigit width n) (padded_ne_nil width n)
  rw [hcs, List.cons_append]
  exact blanks_eq (isBlank_of_isDigit hc) (cs ++ r)

theorem number_padded {n : Nat} (h : n < 100) (r : List Char) :
    number 2 (padded 2 n ++ r) = some (n, r) := by
  rw [number, bind_eq (blanks_padded 2 n r),
    map_eq (digitRun_padded (by decide) h r), numeralValue_padded]

theorem year_minus (r : List Char) :
    year ('-' :: r) = ((fun ds => -(numeralValue ds : Int)) <$> digitRun none) r := rfl

theorem year_plus (r : List Char) :
    year ('+' :: r) = ((fun ds => (numeralValue ds : Int)) <$> digitRun none) r := rfl

theorem year_digit {c : Char} (h : isDigit c = true) (r : List Char) :
    year (c :: r) = ((fun ds => (numeralValue ds : Int)) <$> digitRun (some 4)) (c :: r) := by
  rw [year, bind_eq (blanks_eq (isBlank_of_isDigit h) r), get_bind]
  refine congrFun ?_ (c :: r)
  split
  · rename_i heq
    cases heq
    cases h
  · rename_i heq
    cases heq
    cases h
  · rfl

theorem year_yearText (y : Int) {c : Char} (hc : isDigit c = false) (r : List Char) :
    year (yearText y ++ c :: r) = some (y, c :: r) := by
  have all (n : Nat) : digitRun none (padded 4 n ++ c :: r) = some (padded 4 n, c :: r) :=
    digitRun_all (padded_isDigit 4 n) (padded_ne_nil 4 n) hc r
  by_cases negative : y < 0
  · have value : -(y.natAbs : Int) = y := by omega
    rw [yearText, if_pos negative, List.cons_append, year_minus, map_eq (all _),
      numeralValue_padded, value]
  · have value : (y.toNat : Int) = y := by omega
    by_cases short : y ≤ 9999
    · obtain ⟨d, ds, hds, hd⟩ :=
        exists_digit_cons (padded_isDigit 4 y.toNat) (padded_ne_nil 4 y.toNat)
      have bound : y.toNat < 10000 := by omega
      have run : digitRun (some 4) (padded 4 y.toNat ++ c :: r) =
          some (padded 4 y.toNat, c :: r) := digitRun_padded (by decide) bound (c :: r)
      rw [yearText, if_neg negative, if_pos short]
      rw [hds, List.cons_append] at run ⊢
      rw [year_digit hd, map_eq run, ← hds, numeralValue_padded, value]
    · rw [yearText, if_neg negative, if_neg short, List.cons_append, year_plus, map_eq (all _),
        numeralValue_padded, value]

theorem date_eq (d : Date) (r : List Char) :
    date (yearText d.year ++ '-' :: (padded 2 d.month ++ '-' :: (padded 2 d.day ++ r))) =
      some (d, r) := by
  have month := d.month_mem
  have day : d.day < 100 := by
    have := d.day_mem.2
    unfold daysInMonth at this
    split at this
    · split at this <;> omega
    · split at this <;> omega
  rw [date, bind_eq (year_yearText d.year (by decide) _), bind_eq (mark_eq (by decide) _),
    bind_eq (number_padded (by omega) _), bind_eq (mark_eq (by decide) _),
    bind_eq (number_padded day r), d.of?_self]
  rfl

theorem fraction_point (r : List Char) :
    fraction ('.' :: r) = ((fun ds => numeralValue (ds.take 9) *
      Nat.pow 10 (9 - (ds.take 9).length)) <$> digitRun none) r := rfl

/-- The digits of a fraction, of which those that are left out are zeros. -/
theorem fraction_padded {width f : Nat} (hw : 0 < width ∧ width ≤ 9)
    (hf : f < Nat.pow 10 width) {c : Char} (hc : isDigit c = false) (r : List Char) :
    fraction ('.' :: (padded width f ++ c :: r)) = some (f * Nat.pow 10 (9 - width), c :: r) := by
  have length := length_padded hw.1 hf
  have kept : (padded width f).take 9 = padded width f := List.take_of_length_le (by omega)
  rw [fraction_point, map_eq (digitRun_all (padded_isDigit width f) (padded_ne_nil width f) hc r),
    kept, numeralValue_padded, length]

theorem fraction_fractionText {f : Nat} (hf : f < nanosPerSecond) (r : List Char) :
    fraction (fractionText f ++ 'Z' :: r) = some (f, 'Z' :: r) := by
  have nanos : f < 1000000000 := hf
  have micros : f / 1000 < 1000000 := by omega
  have millis : f / 1000000 < 1000 := by omega
  have zed : isDigit 'Z' = false := by decide
  unfold fractionText
  split
  · rename_i h
    rw [h]
    rfl
  · split
    · rename_i h
      have whole : f / 1000000 * 1000000 = f := by omega
      rw [List.cons_append, fraction_padded (by decide) millis zed]
      exact congrArg (fun n => some (n, 'Z' :: r)) whole
    · split
      · rename_i h
        have whole : f / 1000 * 1000 = f := by omega
        rw [List.cons_append, fraction_padded (by decide) micros zed]
        exact congrArg (fun n => some (n, 'Z' :: r)) whole
      · rw [List.cons_append, fraction_padded (by decide) nanos zed]
        exact congrArg (fun n => some (n, 'Z' :: r)) (Nat.mul_one f)

theorem clock_eq {h m s f : Nat} (hh : h < 24) (hm : m < 60) (hs : s ≤ 60)
    (hf : f < nanosPerSecond) (r : List Char) :
    clock (padded 2 h ++ ':' :: (padded 2 m ++ ':' :: (padded 2 s ++
        (fractionText f ++ 'Z' :: r)))) =
      some (if s = 60 then (h * 3600 + m * 60 + 59, nanosPerSecond + f)
        else (h * 3600 + m * 60 + s, f), 'Z' :: r) := by
  rw [clock, bind_eq (number_padded (by omega) _), bind_eq (mark_eq (by decide) _),
    bind_eq (number_padded (by omega) _), bind_eq (mark_eq (by decide) _),
    bind_eq (number_padded (by omega) _), bind_eq (fraction_fractionText hf r),
    bind_eq (blanks_eq (by decide) r), if_pos ⟨hh, hm, hs⟩]
  split <;> rfl

end Reader

theorem ofLocal?_zero (t : Timestamp) : ofLocal? t.date t.second t.nano 0 = some t := by
  have := t.second_lt
  have early : ¬ (t.second : Int) - 0 < 0 := by omega
  have late : (t.second : Int) - 0 < secondsPerDay := by omega
  simp only [ofLocal?, early, late, if_true, if_false]
  simpa using t.of?_self

theorem clock_text (t : Timestamp) (r : List Char) :
    Reader.clock (padded 2 (t.second / 3600) ++ ':' :: (padded 2 (t.second / 60 % 60) ++ ':' ::
      (padded 2 (t.second % 60 + if nanosPerSecond ≤ t.nano then 1 else 0) ++
        (fractionText (if nanosPerSecond ≤ t.nano then t.nano - nanosPerSecond else t.nano) ++
          'Z' :: r)))) = some ((t.second, t.nano), 'Z' :: r) := by
  have second := t.second_lt
  have nano := t.nano_lt
  have leap := t.leap
  unfold secondsPerDay at second
  by_cases leaps : nanosPerSecond ≤ t.nano
  · -- the 60th second is written, and read as the 59th with a fraction of more than a second
    have last := leap leaps
    simp only [leaps, if_true]
    rw [Reader.clock_eq (by omega) (by omega) (by omega) (by omega), if_pos (by omega)]
    have time : t.second / 3600 * 3600 + t.second / 60 % 60 * 60 + 59 = t.second := by omega
    rw [time, Nat.add_sub_cancel' leaps]
  · simp only [leaps, if_false]
    rw [Reader.clock_eq (by omega) (by omega) (by omega) (by omega), if_neg (by omega)]
    have time : t.second / 3600 * 3600 + t.second / 60 % 60 * 60 + t.second % 60 = t.second := by
      omega
    rw [Nat.add_zero, time]

/-- An instant is read back from its text, leap seconds and years of any length included. -/
theorem ofText?_text (t : Timestamp) : ofText? t.text = some t := by
  have parts : t.text = yearText t.date.year ++ '-' :: (padded 2 t.date.month ++ '-' ::
      (padded 2 t.date.day ++ 'T' :: (padded 2 (t.second / 3600) ++ ':' ::
        (padded 2 (t.second / 60 % 60) ++ ':' ::
          (padded 2 (t.second % 60 + if nanosPerSecond ≤ t.nano then 1 else 0) ++
            (fractionText (if nanosPerSecond ≤ t.nano then t.nano - nanosPerSecond else t.nano) ++
              ['Z'])))))) := by
    simp [text]
  have read : reader t.text = some (t, []) := by
    rw [parts, reader, Reader.bind_eq (Reader.date_eq t.date _)]
    have separator : ∀ r, Reader.separator ('T' :: r) = some ((), r) := fun _ => rfl
    have offset : Reader.offset ['Z'] = some (0, []) := rfl
    rw [Reader.bind_eq (separator _), Reader.bind_eq (clock_text t [])]
    refine (Reader.bind_eq offset _).trans ?_
    rw [ofLocal?_zero]
    rfl
  rw [ofText?, read]
  rfl

theorem ofString?_toString (t : Timestamp) : ofString? t.toString = some t := by
  rw [ofString?, toString, String.toList_ofList, ofText?_text]

end KeyLifecycle.Timestamp
