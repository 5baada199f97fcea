import Outbox.Proofs.Json.Numbers
import Outbox.Proofs.Time.Dates
import Outbox.Time.Timestamp

/-! Reading written times. The text of an instant is read as that instant, in every year of the calendar and to the
nanosecond. -/

namespace Outbox.Timestamp

variable {ds rest : List Char} {n width most : Nat}

/-! ### Numbers -/

theorem digitsValue_eq (cs : List Char) : digitsValue cs = Nat.ofDigitChars 10 cs 0 := by
  rw [digitsValue, Nat.ofDigitChars_eq_foldl]
  congr 1
  funext n c
  rw [Nat.mul_comm]
  rfl

theorem isDigit_of_mem_padded {c : Char} (h : c ∈ padded width n) : c.isDigit := by
  rcases List.mem_append.1 h with h | h
  · rw [List.eq_of_mem_replicate h]
    rfl
  · exact Decimal.isDigit_of_mem_repr h

theorem digitsValue_padded (width n : Nat) : digitsValue (padded width n) = n := by
  rw [digitsValue_eq, padded, Nat.ofDigitChars_append, Nat.ofDigitChars_replicate_zero]
  exact Json.value_repr n

theorem padded_ne_nil (width n : Nat) : padded width n ≠ [] := by
  exact List.append_ne_nil_of_right_ne_nil _ (Decimal.repr_ne_nil n)

theorem length_padded (hwidth : 0 < width) (h : n < 10 ^ width) : (padded width n).length = width := by
  have hlength : (Nat.repr n).toList.length ≤ width := by
    rw [Decimal.toList_repr]
    exact (Nat.length_toDigits_le_iff (by decide) hwidth).2 h
  rw [padded, List.length_append, List.length_replicate]
  omega

theorem skipBlanks_cons {c : Char} (h : ¬isBlank c) (cs : List Char) : skipBlanks (c :: cs) = c :: cs :=
  List.dropWhile_cons_of_neg h

theorem not_isBlank_of_isDigit {c : Char} (h : c.isDigit) : ¬isBlank c := by
  obtain ⟨hlow, hhigh⟩ : 48 ≤ c.toNat ∧ c.toNat ≤ 57 := Char.isDigit_iff_toNat.1 h
  simp only [isBlank, Bool.or_eq_true, Bool.and_eq_true, decide_eq_true_eq, beq_iff_eq]
  omega

theorem skipBlanks_digits (hds : ∀ c ∈ ds, c.isDigit) (hne : ds ≠ []) (rest : List Char) :
    skipBlanks (ds ++ rest) = ds ++ rest := by
  obtain ⟨c, cs, rfl⟩ := List.exists_cons_of_ne_nil hne
  exact skipBlanks_cons (not_isBlank_of_isDigit (hds c List.mem_cons_self)) (cs ++ rest)

/-- Digits are read up to the most that are wanted, or up to what is not a digit. -/
theorem readNumber_digits (hds : ∀ c ∈ ds, c.isDigit) (hne : ds ≠ []) (hmost : ds.length ≤ most)
    (hend : ds.length = most ∨ ∀ c ∈ rest.head?, ¬c.isDigit) :
    readNumber most (ds ++ rest) = some (digitsValue ds, rest) := by
  have hrun : ((ds ++ rest).take most).takeWhile Char.isDigit = ds := by
    rw [List.take_append, List.take_of_length_le hmost, List.takeWhile_append_of_pos hds]
    rcases hend with hend | hend
    · rw [hend, Nat.sub_self, List.take_zero, List.takeWhile_nil, List.append_nil]
    · cases hrest : rest.take (most - ds.length) with
      | nil => rw [List.takeWhile_nil, List.append_nil]
      | cons c cs =>
        have hc : c ∈ rest.head? := by
          have hhead := congrArg List.head? hrest
          rw [List.head?_take] at hhead
          split at hhead
          · cases hhead
          · exact hhead
        rw [List.takeWhile_cons_of_neg (hend c hc), List.append_nil]
  rw [readNumber, skipBlanks_digits hds hne, hrun, List.drop_left, if_neg]
  rw [List.isEmpty_iff]
  exact hne

theorem readNumber_padded (hwidth : 0 < width) (h : n < 10 ^ width) (rest : List Char) :
    readNumber width (padded width n ++ rest) = some (n, rest) := by
  have hlength := length_padded hwidth h
  rw [readNumber_digits (fun _ => isDigit_of_mem_padded) (padded_ne_nil width n) hlength.le (.inl hlength),
    digitsValue_padded]

/-! ### Parts -/

theorem not_isDigit_dash (rest : List Char) : ∀ c ∈ ('-' :: rest).head?, ¬c.isDigit := by
  rintro c ⟨⟩
  decide

theorem readYear_unsigned (h : n < 10000) (rest : List Char) :
    readYear (padded 4 n ++ '-' :: rest) = some ((n : Int), '-' :: rest) := by
  have hread := readNumber_padded (Nat.succ_pos 3) h ('-' :: rest)
  have hdigits : ∀ c ∈ padded 4 n, c.isDigit := fun _ => isDigit_of_mem_padded
  have hblanks := skipBlanks_digits hdigits (padded_ne_nil 4 n) ('-' :: rest)
  obtain ⟨c, cs, hcs⟩ := List.exists_cons_of_ne_nil (padded_ne_nil 4 n)
  have hc := hdigits c (hcs ▸ List.mem_cons_self)
  rw [hcs, List.cons_append] at hread hblanks ⊢
  rw [readYear, hblanks]
  split
  · next heq =>
    rw [(List.cons.inj heq).1] at hc
    cases hc
  · next heq =>
    rw [(List.cons.inj heq).1] at hc
    cases hc
  · rw [hread]
    rfl

theorem readNumber_signed (n : Nat) (rest : List Char) :
    readNumber (padded 4 n ++ '-' :: rest).length (padded 4 n ++ '-' :: rest) = some (n, '-' :: rest) := by
  have hlength : (padded 4 n).length ≤ (padded 4 n ++ '-' :: rest).length := by
    rw [List.length_append]
    exact Nat.le_add_right _ _
  rw [readNumber_digits (fun _ => isDigit_of_mem_padded) (padded_ne_nil 4 n) hlength (.inr (not_isDigit_dash rest)),
    digitsValue_padded]

theorem head_padded_isDigit (width n : Nat) (rest : List Char) : (padded width n ++ rest).head?.any Char.isDigit := by
  obtain ⟨c, cs, hcs⟩ := List.exists_cons_of_ne_nil (padded_ne_nil width n)
  rw [hcs]
  exact isDigit_of_mem_padded (hcs ▸ List.mem_cons_self)

theorem readYear_minus (cs : List Char) : readYear ('-' :: cs) =
    if cs.head?.any Char.isDigit then (readNumber cs.length cs).map fun (n, r) => (-(n : Int), r) else none := rfl

theorem readYear_plus (cs : List Char) : readYear ('+' :: cs) =
    if cs.head?.any Char.isDigit then (readNumber cs.length cs).map fun (n, r) => ((n : Int), r) else none := rfl

theorem readYear_writeYear (y : Int) (rest : List Char) :
    readYear (writeYear y ++ '-' :: rest) = some (y, '-' :: rest) := by
  have hhead := head_padded_isDigit 4 y.natAbs ('-' :: rest)
  have hsigned := readNumber_signed y.natAbs rest
  rw [writeYear]
  split
  · next hplain =>
    obtain ⟨n, rfl⟩ := Int.eq_ofNat_of_zero_le hplain.1
    exact readYear_unsigned (by omega) rest
  · split
    · rw [List.cons_append, readYear_minus, if_pos hhead, hsigned]
      have hy : -(y.natAbs : Int) = y := by omega
      exact congrArg (fun z => some (z, '-' :: rest)) hy
    · rw [List.cons_append, readYear_plus, if_pos hhead, hsigned]
      have hy : (y.natAbs : Int) = y := by omega
      exact congrArg (fun z => some (z, '-' :: rest)) hy

theorem readFraction_padded {k : Nat} (hwidth : 0 < width) (hnine : width ≤ 9) (hk : k < 10 ^ width) :
    readFraction ('.' :: padded width k ++ ['Z']) = some (k * 10 ^ (9 - width), ['Z']) := by
  have hlength := length_padded hwidth hk
  have hrun : (padded width k ++ ['Z']).takeWhile Char.isDigit = padded width k := by
    rw [List.takeWhile_append_of_pos fun _ => isDigit_of_mem_padded]
    exact List.append_nil _
  have hvalue : digitsValue (padded width k ++ List.replicate (9 - width) '0') = k * 10 ^ (9 - width) := by
    rw [digitsValue_eq, Nat.ofDigitChars_append, ← digitsValue_eq, digitsValue_padded, Nat.ofDigitChars_replicate_zero,
      Nat.mul_comm]
  have hsome : ¬(padded width k).isEmpty := by
    rw [List.isEmpty_iff]
    exact padded_ne_nil width k
  rw [List.cons_append, readFraction, hrun, List.take_of_length_le (hlength.le.trans hnine), List.drop_left, hlength,
    hvalue, if_neg hsome]

theorem readFraction_writeFraction (h : n < 1000000000) :
    readFraction (writeFraction n ++ ['Z']) = some (n, ['Z']) := by
  rw [writeFraction]
  split_ifs with hzero hmillis hmicros
  · rw [hzero]
    rfl
  · rw [readFraction_padded (by decide) (by decide) (by omega)]
    exact congrArg (fun n => some (n, ['Z'])) (by omega)
  · rw [readFraction_padded (by decide) (by decide) (by omega)]
    exact congrArg (fun n => some (n, ['Z'])) (by omega)
  · rw [readFraction_padded (by decide) (by decide) h]
    exact congrArg (fun n => some (n, ['Z'])) (by omega)

/-! ### Instants -/

theorem readNumber_pair (h : n < 100) (rest : List Char) : readNumber 2 (padded 2 n ++ rest) = some (n, rest) :=
  readNumber_padded Nat.two_pos h rest

theorem expect_dash (rest : List Char) : expect '-' ('-' :: rest) = some rest := rfl

theorem expect_colon (rest : List Char) : expect ':' (':' :: rest) = some rest := rfl

/-- A date and a time of the day are read as the instant that they name. -/
theorem read?_parts {date : Calendar.Date} {hour minute second nanos : Nat} (hvalid : date.isValid) (hhour : hour < 24)
    (hminute : minute < 60) (hsecond : second < 60) (hnanos : nanos < 1000000000) {i : Instant}
    (hi : (date.dayNumber * 86400 + hour * 3600 + minute * 60 + second) * 1000000000 + nanos = i.nanos) {text : String}
    (htext : text.toList = writeYear date.year ++ '-' :: (padded 2 date.month ++ '-' :: (padded 2 date.day ++
      'T' :: (padded 2 hour ++ ':' :: (padded 2 minute ++ ':' :: (padded 2 second ++ (writeFraction nanos ++ ['Z']))))))) :
    read? text = some (i : Timestamp) := by
  have hdate := Calendar.lt_hundred_of_isValid hvalid
  have hclock : (date.isValid && decide (hour < 24) && decide (minute < 60) && decide (second ≤ 60)) = true := by
    simp only [hvalid, hhour, hminute, hsecond.le, decide_true, Bool.and_true]
  have hinstant : Instant.ofNanos? i.nanos = some i := dif_pos ⟨i.first_le, i.le_last⟩
  rw [read?, htext]
  refine Option.bind_eq_some_iff.2 ⟨_, readYear_writeYear _ _, ?_⟩
  refine Option.bind_eq_some_iff.2 ⟨_, expect_dash _, ?_⟩
  refine Option.bind_eq_some_iff.2 ⟨_, readNumber_pair hdate.1 _, ?_⟩
  refine Option.bind_eq_some_iff.2 ⟨_, expect_dash _, ?_⟩
  refine Option.bind_eq_some_iff.2 ⟨_, readNumber_pair hdate.2 _, ?_⟩
  refine Option.bind_eq_some_iff.2 ⟨_, rfl, ?_⟩
  refine Option.bind_eq_some_iff.2 ⟨_, readNumber_pair (Nat.lt_trans hhour (by decide)) _, ?_⟩
  refine Option.bind_eq_some_iff.2 ⟨_, expect_colon _, ?_⟩
  refine Option.bind_eq_some_iff.2 ⟨_, readNumber_pair (Nat.lt_trans hminute (by decide)) _, ?_⟩
  refine Option.bind_eq_some_iff.2 ⟨_, expect_colon _, ?_⟩
  refine Option.bind_eq_some_iff.2 ⟨_, readNumber_pair (Nat.lt_trans hsecond (by decide)) _, ?_⟩
  refine Option.bind_eq_some_iff.2 ⟨_, readFraction_writeFraction hnanos, ?_⟩
  refine Option.bind_eq_some_iff.2 ⟨(0, []), rfl, ?_⟩
  refine Option.bind_eq_some_iff.2 ⟨(), rfl, ?_⟩
  refine Option.bind_eq_some_iff.2 ⟨(), if_pos hclock, ?_⟩
  refine Option.bind_eq_some_iff.2 ⟨i, (congrArg Instant.ofNanos? hi).trans hinstant, ?_⟩
  refine Option.bind_eq_some_iff.2 ⟨i, ?_, ?_⟩
  · rw [Int.zero_mul, Int.sub_zero, hinstant]
  · rw [beq_false_of_ne (Nat.ne_of_lt hsecond)]
    rfl

/-- The text of an instant is read as the instant. -/
theorem read?_write (i : Instant) : read? (write i) = some (i : Timestamp) := by
  obtain ⟨hvalid, hnumber⟩ := Calendar.dateOf_spec (i.nanos / 86400000000000)
  have htext : (write i).toList = writeLocal i ++ ['Z'] := String.toList_ofList
  rw [writeLocal] at htext
  dsimp only at htext
  simp only [Bool.false_eq_true, if_false, List.append_assoc, List.cons_append] at htext
  generalize Calendar.dateOf (i.nanos / 86400000000000) = date at *
  refine read?_parts hvalid ?_ ?_ ?_ ?_ ?_ htext
  all_goals omega

end Outbox.Timestamp
