import Outbox.Proofs.Json.Doubles

/-! Reading written doubles: their texts. Whether its point stands among its digits or it has an exponent, the text of a
decimal is read as digits times a power of ten, and that is a double whenever the decimal came from one. -/

namespace Outbox.Json

open Utf8 (encode)
open Decimal (zeros leading writePositional writeScientific toList_repr repr_ne_nil)

variable {negative : Bool} {n e : Nat} {rest : Bytes} {ds fs : List Char} {d : Decimal}

/-! ### Digits -/

theorem length_encode_digits (h : ∀ c ∈ fs, c.isDigit) : (encode fs).length = fs.length := by
  induction fs with
  | nil => rfl
  | cons c fs ih =>
    obtain ⟨hc, hfs⟩ := List.forall_mem_cons.1 h
    obtain ⟨b, hbytes, -⟩ := encodeChar_digit hc
    rw [Utf8.encode_cons, hbytes, List.singleton_append, List.length_cons, List.length_cons, ih hfs]

theorem isDigit_of_mem_zeros {k : Nat} {c : Char} (h : c ∈ zeros k) : c.isDigit := by
  rw [List.eq_of_mem_replicate h]
  rfl

theorem value_le_value_append (ds fs : List Char) : Nat.ofDigitChars 10 ds 0 ≤ Nat.ofDigitChars 10 (ds ++ fs) 0 := by
  rw [Nat.ofDigitChars_append, Nat.ofDigitChars_eq_ofDigitChars_zero (l := fs)]
  have hpow : 0 < 10 ^ fs.length := Nat.pow_pos (by decide)
  exact (Nat.le_mul_of_pos_left _ hpow).trans (Nat.le_add_right _ _)

theorem IsWhole.append_zeros (h : IsWhole ds) {k : Nat} (hk : ds = ['0'] → k = 0) : IsWhole (ds ++ zeros k) where
  digits c hc := (List.mem_append.1 hc).elim (h.digits c) isDigit_of_mem_zeros
  lead := by
    rcases h.lead with rfl | ⟨c, cs, rfl, hc⟩
    · exact .inl (by rw [hk rfl]; rfl)
    · exact .inr ⟨c, cs ++ zeros k, rfl, hc⟩

theorem IsWhole.take (h : IsWhole ds) {k : Nat} (hk : 0 < k) : IsWhole (ds.take k) where
  digits c hc := h.digits c (List.mem_of_mem_take hc)
  lead := by
    obtain ⟨k, rfl⟩ := Nat.exists_eq_succ_of_ne_zero (Nat.ne_of_gt hk)
    rcases h.lead with rfl | ⟨c, cs, rfl, hc⟩
    · exact .inl (by rw [List.take_succ_cons, List.take_nil])
    · exact .inr ⟨c, cs.take k, rfl, hc⟩

theorem IsWhole.head_append_isDigit (h : IsWhole ds) (cs : List Char) : (ds ++ cs).head?.any Char.isDigit := by
  have hhead := h.head_isDigit
  cases ds with
  | nil => cases hhead
  | cons => exact hhead

theorem lt_pow_length_repr (n : Nat) : n < 10 ^ (Nat.repr n).length := by
  rw [← String.length_toList, toList_repr]
  exact (Nat.length_toDigits_le_iff (by decide) Nat.length_toDigits_pos).1 (Nat.le_refl _)

/-! ### Fractions and exponents -/

theorem NumberOver.readExponentOrEnd (h : NumberOver rest) (e : Int) :
    readExponentOrEnd negative n e rest = finishDouble negative n e rest := by
  rw [Json.readExponentOrEnd]
  · rintro _ rfl
    exact (h _ rfl).2.2.1 rfl
  · rintro _ rfl
    exact (h _ rfl).2.2.2 rfl

/-- The digits after a point go on with those before it. -/
theorem readFraction_encode (h : ∀ c ∈ fs, c.isDigit) (hfs : fs ≠ []) (htop : Nat.ofDigitChars 10 fs n ≤ Count.top)
    (hrest : NoDigit rest) (e : Int) : readFraction negative n e (encode fs ++ rest) =
      readExponentOrEnd negative (Nat.ofDigitChars 10 fs n) (e - fs.length) rest := by
  have hlength := length_encode_digits h
  have hsome : (encode fs).isEmpty = false := by
    rw [List.isEmpty_eq_false_iff, ← List.length_pos_iff, hlength]
    exact List.length_pos_iff.2 hfs
  rw [readFraction, spanDigits_encode h hrest]
  dsimp only
  rw [hsome, if_neg Bool.false_ne_true, accumulate_encode h htop, hlength]
  rfl

theorem readNumber_point (hds : IsWhole ds) (h : ∀ c ∈ fs, c.isDigit) (hfs : fs ≠ [])
    (hvalue : Nat.ofDigitChars 10 (ds ++ fs) 0 = n) (htop : n ≤ Count.top) (hrest : NoDigit rest) :
    readNumber negative (encode (ds ++ '.' :: fs) ++ rest) = readExponentOrEnd negative n (-fs.length) rest := by
  have hpoint : NoDigit (46 :: (encode fs ++ rest)) := by
    rintro b ⟨⟩
    decide
  have hle : Nat.ofDigitChars 10 ds 0 ≤ Count.top := (value_le_value_append ds fs).trans (hvalue ▸ htop)
  have htext : encode (ds ++ '.' :: fs) ++ rest = encode ds ++ 46 :: (encode fs ++ rest) := by
    rw [Utf8.encode_append, Utf8.encode_cons, List.append_assoc]
    rfl
  rw [Nat.ofDigitChars_append] at hvalue
  rw [htext, readNumber_encode hds rfl hle hpoint, afterWhole, readFraction_encode h hfs (hvalue ▸ htop) hrest, hvalue,
    Int.zero_sub]

theorem readPower_encode (h : ∀ c ∈ fs, c.isDigit) (hfs : fs ≠ []) (hvalue : Nat.ofDigitChars 10 fs 0 = e)
    (htop : e ≤ exponentTop) (hrest : NoDigit rest) (k : Int) (down : Bool) :
    readPower negative n k down (encode fs ++ rest) =
      finishDouble negative n (clampExponent (if down then k - e else k + e)) rest := by
  have hspan := spanDigits_encode h hrest
  have haccumulate : accumulate exponentTop 0 (encode fs) = (e, []) := hvalue ▸ accumulate_encode h (hvalue ▸ htop)
  obtain ⟨c, cs, rfl⟩ := List.exists_cons_of_ne_nil hfs
  obtain ⟨b, hbytes, hdigit, -⟩ := encodeChar_digit (h c List.mem_cons_self)
  rw [Utf8.encode_cons, hbytes, List.singleton_append, List.cons_append] at hspan
  rw [Utf8.encode_cons, hbytes, List.singleton_append] at haccumulate
  rw [Utf8.encode_cons, hbytes, List.singleton_append, List.cons_append, readPower, hdigit, Bool.not_true,
    if_neg Bool.false_ne_true, hspan, haccumulate]

/-! ### Texts -/

/-- A text is read as a number times a power of ten, with either sign and whatever follows it. -/
structure ReadsScaled (text : List Char) (n : Nat) (e : Int) : Prop where
  head_isDigit : text.head?.any Char.isDigit
  read : ∀ negative rest, NumberOver rest → readNumber negative (encode text ++ rest) = finishDouble negative n e rest

theorem ReadsScaled.readsNumber {text : List Char} {e : Int} (h : ReadsScaled text n e) {y : Double}
    (hy : scaledDouble? n e = some y) (negative : Bool) :
    ReadsNumber (encode ((if negative then ['-'] else []) ++ text)) (.double { y with negative := negative }) :=
  readsNumber_of_sign negative h.head_isDigit fun rest hrest => by rw [h.read negative rest hrest, finishDouble, hy]

theorem readsScaled_point (hds : IsWhole ds) (h : ∀ c ∈ fs, c.isDigit) (hfs : fs ≠ [])
    (hvalue : Nat.ofDigitChars 10 (ds ++ fs) 0 = n) (htop : n ≤ Count.top) :
    ReadsScaled (ds ++ '.' :: fs) n (-fs.length) where
  head_isDigit := hds.head_append_isDigit _
  read _ _ hrest := by rw [readNumber_point hds h hfs hvalue htop hrest.noDigit, hrest.readExponentOrEnd]

theorem readsScaled_shifted (hds : IsWhole ds) {k : Nat} (hk : ds = ['0'] → k = 0)
    (hvalue : Nat.ofDigitChars 10 ds 0 = n) (htop : n * 10 ^ (k + 1) ≤ Count.top) :
    ReadsScaled (ds ++ zeros k ++ ['.', '0']) (n * 10 ^ (k + 1)) (-1) := by
  refine readsScaled_point (hds.append_zeros hk) (List.forall_mem_singleton.2 rfl) (List.cons_ne_nil _ _) ?_ htop
  rw [Nat.ofDigitChars_append, Nat.ofDigitChars_append, hvalue, zeros, Nat.ofDigitChars_replicate_zero, Nat.pow_succ]
  change 10 * (10 ^ k * n) + 0 = _
  ring

theorem readsScaled_split (hds : IsWhole ds) {places : Nat} (hplaces : 0 < places) (hlt : places < ds.length)
    (hvalue : Nat.ofDigitChars 10 ds 0 = n) (htop : n ≤ Count.top) :
    ReadsScaled (ds.take (ds.length - places) ++ '.' :: ds.drop (ds.length - places)) n (-places) := by
  have hdrop : (ds.drop (ds.length - places)).length = places := by
    rw [List.length_drop]
    omega
  have hpoint := readsScaled_point (hds.take (Nat.sub_pos_of_lt hlt))
    (fun c hc => hds.digits c (List.mem_of_mem_drop hc)) (List.ne_nil_of_length_pos (hplaces.trans_eq hdrop.symm))
    ((congrArg (Nat.ofDigitChars 10 · 0) (List.take_append_drop _ ds)).trans hvalue) htop
  rwa [hdrop] at hpoint

theorem readsScaled_padded (hds : ∀ c ∈ ds, c.isDigit) (hne : ds ≠ []) (k : Nat)
    (hvalue : Nat.ofDigitChars 10 ds 0 = n) (htop : n ≤ Count.top) :
    ReadsScaled ('0' :: '.' :: (zeros k ++ ds)) n (-(zeros k ++ ds).length) := by
  have hwhole : IsWhole ['0'] := ⟨List.forall_mem_singleton.2 rfl, .inl rfl⟩
  refine readsScaled_point hwhole (fun c hc => (List.mem_append.1 hc).elim isDigit_of_mem_zeros (hds c))
    (List.append_ne_nil_of_right_ne_nil _ hne) ?_ htop
  rw [Nat.ofDigitChars_append, Nat.ofDigitChars_append, zeros, Nat.ofDigitChars_replicate_zero]
  exact hvalue

/-- A decimal whose texts are read as doubles. -/
structure IsLegible (d : Decimal) : Prop where
  digits_le : d.digits ≤ 10 ^ 17
  exponent_of_zero : d.digits = 0 → d.exponent = 0
  le_exponent : -341 ≤ d.exponent
  exponent_le : d.exponent ≤ powerLimit
  scaled : ∃ y, scaledDouble? d.digits d.exponent = some y

theorem IsLegible.le_top (h : IsLegible d) : d.digits ≤ Count.top := h.digits_le.trans (by decide)

theorem IsLegible.length_le (h : IsLegible d) : (Nat.repr d.digits).toList.length ≤ 18 := by
  rw [toList_repr]
  exact (Nat.length_toDigits_le_iff (by decide) (by decide)).2 (Nat.lt_of_le_of_lt h.digits_le (by decide))

/-- With its point among its digits a decimal is read as digits of which some stand after the point. -/
theorem readsScaled_writePositional (h : IsLegible d) (hlead : d.leading < 16) :
    ∃ n e, e < 0 ∧ ReadsScaled (writePositional true d) n e := by
  have hwhole := isWhole_repr d.digits
  have hvalue := value_repr d.digits
  have hlt := lt_pow_length_repr d.digits
  have hne := repr_ne_nil d.digits
  rw [leading] at hlead
  rw [← String.length_toList] at hlt hlead
  rw [writePositional]
  dsimp only
  generalize (Nat.repr d.digits).toList = digits at *
  split
  · next hnonneg =>
    obtain ⟨k, hk⟩ := Int.eq_ofNat_of_zero_le hnonneg
    have htop : d.digits * 10 ^ (k + 1) ≤ Count.top := by
      calc d.digits * 10 ^ (k + 1)
        _ ≤ 10 ^ digits.length * 10 ^ (k + 1) := Nat.mul_le_mul_right _ hlt.le
        _ = 10 ^ (digits.length + (k + 1)) := (Nat.pow_add ..).symm
        _ ≤ 10 ^ 17 := Nat.pow_le_pow_right (by decide) (by omega)
        _ ≤ Count.top := by decide
    -- zeros may follow any digits but a lone zero, which would then lead the number
    have hlone : digits = ['0'] → k = 0 := by
      rintro rfl
      have := h.exponent_of_zero hvalue.symm
      omega
    rw [hk]
    exact ⟨_, -1, by decide, readsScaled_shifted hwhole hlone hvalue htop⟩
  · next hneg =>
    have hplaces : 0 < (-d.exponent).toNat := by omega
    generalize (-d.exponent).toNat = places at *
    split
    · next hamong => exact ⟨_, -places, by omega, readsScaled_split hwhole hplaces hamong hvalue h.le_top⟩
    · refine ⟨_, _, ?_, readsScaled_padded hwhole.digits hne (places - digits.length) hvalue h.le_top⟩
      have := List.length_pos_iff.2 hne
      rw [List.length_append]
      omega

/-- Digits with a point after the first, if there are others. -/
def pointed : List Char → List Char
  | [] => []
  | [c] => [c]
  | c :: rest => c :: '.' :: rest

theorem writeScientific_eq (d : Decimal) : writeScientific d = pointed (Nat.repr d.digits).toList ++
    'e' :: (if d.leading < 0 then '-' else '+') :: (Nat.repr d.leading.natAbs).toList := rfl

theorem readNumber_pointed (hds : IsWhole ds) (hvalue : Nat.ofDigitChars 10 ds 0 = n) (htop : n ≤ Count.top)
    (bytes : Bytes) :
    readNumber negative (encode (pointed ds) ++ 101 :: bytes) = readExponent negative n (1 - ds.length) bytes := by
  have hletter : NoDigit (101 :: bytes) := by
    rintro b ⟨⟩
    decide
  have hne : ds ≠ [] := by
    rintro rfl
    cases hds.head_isDigit
  obtain ⟨c, cs, rfl⟩ := List.exists_cons_of_ne_nil hne
  cases cs with
  | nil => exact readNumber_encode hds hvalue htop hletter negative
  | cons c' cs =>
    have hdigits : ∀ c ∈ c' :: cs, c.isDigit := fun c hc => hds.digits c (List.mem_cons_of_mem _ hc)
    have hlength : (1 : Int) - (c :: c' :: cs).length = -(c' :: cs).length := by
      simp only [List.length_cons]
      omega
    rw [hlength]
    exact readNumber_point (hds.take Nat.one_pos) hdigits (List.cons_ne_nil _ _) hvalue htop hletter

theorem clampExponent_of_legible (h : IsLegible d) : clampExponent d.exponent = d.exponent := by
  have hlow := h.le_exponent
  have hhigh := h.exponent_le
  rw [powerLimit] at hhigh
  rw [clampExponent]
  omega

/-- The power of ten of the first digit, written after the digits, is read as that of the last one. -/
theorem readExponent_leading (h : IsLegible d) (hrest : NumberOver rest) :
    readExponent negative d.digits (1 - (Nat.repr d.digits).toList.length)
        (encode ((if d.leading < 0 then '-' else '+') :: (Nat.repr d.leading.natAbs).toList) ++ rest) =
      finishDouble negative d.digits d.exponent rest := by
  have hlead : d.leading = d.exponent + (Nat.repr d.digits).toList.length - 1 := by
    rw [leading, String.length_toList]
  have htop : d.leading.natAbs ≤ exponentTop := by
    have hlength := h.length_le
    have hlow := h.le_exponent
    have hhigh := h.exponent_le
    rw [powerLimit] at hhigh
    change d.leading.natAbs ≤ 2147483647
    omega
  have hpower (down : Bool) : readPower negative d.digits _ down _ = _ := readPower_encode
    (isWhole_repr d.leading.natAbs).digits (repr_ne_nil _) (value_repr _) htop hrest.noDigit
    (1 - (Nat.repr d.digits).toList.length) down
  rw [readExponent_eq, Utf8.encode_cons]
  split
  · next hdown =>
    have hsum : 1 - ((Nat.repr d.digits).toList.length : Int) - d.leading.natAbs = d.exponent := by omega
    refine (hpower true).trans ?_
    rw [if_pos rfl, hsum, clampExponent_of_legible h]
  · next hup =>
    have hsum : 1 - ((Nat.repr d.digits).toList.length : Int) + d.leading.natAbs = d.exponent := by omega
    refine (hpower false).trans ?_
    rw [if_neg Bool.false_ne_true, hsum, clampExponent_of_legible h]

/-- With an exponent a decimal is read as it is. -/
theorem readsScaled_writeScientific (h : IsLegible d) : ReadsScaled (writeScientific d) d.digits d.exponent where
  head_isDigit := by
    have hhead := (isWhole_repr d.digits).head_isDigit
    rw [writeScientific_eq]
    generalize (Nat.repr d.digits).toList = digits at *
    match digits with
    | [] => cases hhead
    | [_] | _ :: _ :: _ => exact hhead
  read negative rest hrest := by
    rw [writeScientific_eq, Utf8.encode_append, Utf8.encode_cons, List.append_assoc]
    exact (readNumber_pointed (isWhole_repr _) (value_repr _) h.le_top _).trans (readExponent_leading h hrest)

/-! ### Doubles -/

theorem isLegible_shortest {x : Double} (hx : x.IsFinite) : IsLegible (Decimal.shortest x) := by
  rcases Decimal.shortest_cases hx with hzero | hnear
  · rw [hzero]
    exact ⟨by decide, fun _ => rfl, by decide, by decide, _, rfl⟩
  · obtain ⟨hlimit, hscaled⟩ := exists_scaledDouble_shortest hx hnear
    exact ⟨hnear.digits_le, fun h => absurd h hnear.digits_pos.ne', hnear.le_exponent, hlimit, hscaled⟩

/-- A written double is read as a double. -/
theorem exists_readsNumber_double {x : Double} (hx : x.IsFinite) :
    ∃ y, ReadsNumber (encode (doubles.writeDouble x)) (.double y) := by
  have h := isLegible_shortest hx
  rw [Decimal.Layout.writeDouble, Decimal.Layout.write]
  by_cases hpositional : doubles.positional (Decimal.shortest x).leading
  · have hlead : (Decimal.shortest x).leading < 16 := of_decide_eq_true (Bool.and_elim_right hpositional)
    obtain ⟨n, e, he, hread⟩ := readsScaled_writePositional h hlead
    rw [if_pos hpositional]
    exact ⟨_, hread.readsNumber (if_pos he) x.negative⟩
  · obtain ⟨y, hy⟩ := h.scaled
    rw [if_neg hpositional]
    exact ⟨_, (readsScaled_writeScientific h).readsNumber hy x.negative⟩

/-- A written number is read, an integer as itself. -/
theorem exists_readsNumber {n : Numeral} (h : n.IsProper) :
    ∃ n', ReadsNumber (encode n.write) n' ∧ ∀ i, n = .integer i → n' = n := by
  cases n with
  | integer i => exact ⟨.integer i, readsNumber_integer h, fun _ _ => rfl⟩
  | double x =>
    obtain ⟨y, hy⟩ := exists_readsNumber_double h
    exact ⟨.double y, hy, nofun⟩

end Outbox.Json
