import Mathlib.Data.List.TakeWhile
import Mathlib.Tactic.IntervalCases
import Outbox.Json.Writer

/-! Written values that can be told apart. A string ends at the first quote that is not escaped and an integer at the
first character that is no digit, so the members that an object starts with can be recovered from its text as long as
they are strings and integers, whatever comes after them. -/

namespace Outbox

namespace Decimal

def isNumeric (c : Char) : Bool := c.isDigit || c == '-'

theorem isDigit_of_mem_repr {n : Nat} {c : Char} (h : c ∈ (Nat.repr n).toList) : c.isDigit := by
  rw [Nat.repr, String.toList_ofList] at h
  exact Nat.isDigit_of_mem_toDigits (by decide) (by decide) h

theorem isNumeric_of_mem_integerChars {n : Int} {c : Char} (h : c ∈ integerChars n) : isNumeric c := by
  rw [integerChars, List.mem_append] at h
  rcases h with h | h
  · split at h
    · rw [List.mem_singleton.1 h]
      rfl
    · cases h
  · rw [isNumeric, isDigit_of_mem_repr h]
    rfl

theorem minus_notMem_repr (n : Nat) : '-' ∉ (Nat.repr n).toList := by
  intro h
  have hdigit := isDigit_of_mem_repr h
  revert hdigit
  decide

theorem repr_inj {a b : Nat} (h : (Nat.repr a).toList = (Nat.repr b).toList) : a = b := by
  simp only [Nat.repr, String.toList_ofList] at h
  rw [← Nat.ofDigitChars_toDigits (b := 10) (n := a) (by decide) (by decide), h,
    Nat.ofDigitChars_toDigits (by decide) (by decide)]

theorem integerChars_inj {n m : Int} (h : integerChars n = integerChars m) : n = m := by
  rw [integerChars, integerChars] at h
  by_cases hn : n < 0 <;> by_cases hm : m < 0
  · simp only [hn, hm, if_true] at h
    have := repr_inj (List.append_cancel_left h)
    omega
  · simp only [hn, hm, if_true, if_false, List.nil_append] at h
    have hminus := minus_notMem_repr m.natAbs
    rw [← h] at hminus
    exact absurd List.mem_cons_self hminus
  · simp only [hn, hm, if_true, if_false, List.nil_append] at h
    have hminus := minus_notMem_repr n.natAbs
    rw [h] at hminus
    exact absurd List.mem_cons_self hminus
  · simp only [hn, hm, if_false, List.nil_append] at h
    have := repr_inj h
    omega

/-- An integer is over where a character follows that is not part of one. -/
theorem takeWhile_integerChars {x : Char} (hx : ¬isNumeric x) (n : Int) (rest : List Char) :
    (integerChars n ++ x :: rest).takeWhile isNumeric = integerChars n := by
  rw [List.takeWhile_append_of_pos fun _ => isNumeric_of_mem_integerChars, List.takeWhile_cons_of_neg hx,
    List.append_nil]

theorem integerChars_append_inj {x y : Char} (hx : ¬isNumeric x) (hy : ¬isNumeric y) {n m : Int}
    {rest others : List Char} (h : integerChars n ++ x :: rest = integerChars m ++ y :: others) :
    n = m ∧ x :: rest = y :: others := by
  have htexts : integerChars n = integerChars m := by
    rw [← takeWhile_integerChars hx n rest, h, takeWhile_integerChars hy]
  rw [htexts] at h
  exact ⟨integerChars_inj htexts, List.append_cancel_left h⟩

end Decimal

namespace Json

/-! ### Strings -/

/-- The character does not stand for itself in a string. -/
def IsSpecial (c : Char) : Prop := c = '"' ∨ c = '\\' ∨ c.toNat < 32

theorem escape_of_not_special {c : Char} (h : ¬IsSpecial c) : escape c = [c] ∧ c ≠ '"' ∧ c ≠ '\\' := by
  obtain ⟨hquote, hrest⟩ := not_or.1 h
  obtain ⟨hbackslash, hprintable⟩ := not_or.1 hrest
  refine ⟨?_, hquote, hbackslash⟩
  rw [escape, if_neg hquote, if_neg hbackslash, if_pos (Nat.le_of_not_lt hprintable)]

/-- The character that the escape at the start of a text stands for. -/
def unescape? : List Char → Option Char
  | '\\' :: 'b' :: _ => some '\x08'
  | '\\' :: 'f' :: _ => some '\x0c'
  | '\\' :: 'n' :: _ => some '\n'
  | '\\' :: 'r' :: _ => some '\r'
  | '\\' :: 't' :: _ => some '\t'
  | '\\' :: 'u' :: _ :: _ :: high :: low :: _ => do
    return Char.ofNat ((← Hex.digit? high.toNat) * 16 + (← Hex.digit? low.toNat))
  | '\\' :: c :: _ => some c
  | _ => none

theorem unescape?_escape {c : Char} (h : IsSpecial c) (rest : List Char) : unescape? (escape c ++ rest) = some c := by
  rcases h with rfl | rfl | h
  · rfl
  · rfl
  · obtain ⟨n, hn⟩ : ∃ n, n = c.toNat := ⟨_, rfl⟩
    rw [← hn] at h
    have hc : c = Char.ofNat n := by rw [hn, Char.ofNat_toNat]
    subst hc
    interval_cases n <;> rfl

theorem head?_escape {c : Char} (h : IsSpecial c) : (escape c).head? = some '\\' := by
  simp only [escape]
  split_ifs with hquote hbackslash hprintable
  all_goals try rfl
  rcases h with h | h | h
  · exact absurd h hquote
  · exact absurd h hbackslash
  · omega

theorem escape_append_inj {c d : Char} {rest others : List Char} (h : escape c ++ rest = escape d ++ others) :
    c = d ∧ rest = others := by
  suffices hcd : c = d by
    subst hcd
    exact ⟨rfl, List.append_cancel_left h⟩
  have hhead := congrArg List.head? h
  by_cases hc : IsSpecial c <;> by_cases hd : IsSpecial d
  · -- Two escapes differ in what they stand for, which their first characters tell.
    have hread := unescape?_escape hc rest
    rw [h, unescape?_escape hd] at hread
    exact (Option.some.inj hread).symm
  · obtain ⟨hplain, -, hne⟩ := escape_of_not_special hd
    rw [List.head?_append, head?_escape hc, hplain] at hhead
    exact absurd (Option.some.inj hhead).symm hne
  · obtain ⟨hplain, -, hne⟩ := escape_of_not_special hc
    rw [List.head?_append, List.head?_append, head?_escape hd, hplain] at hhead
    exact absurd (Option.some.inj hhead) hne
  · rw [(escape_of_not_special hc).1, (escape_of_not_special hd).1] at hhead
    exact Option.some.inj hhead

theorem escape_append_ne_quote (c : Char) (rest others : List Char) : escape c ++ rest ≠ '"' :: others := by
  intro h
  have hhead := congrArg List.head? h
  by_cases hc : IsSpecial c
  · rw [List.head?_append, head?_escape hc] at hhead
    cases hhead
  · obtain ⟨hplain, hne, -⟩ := escape_of_not_special hc
    rw [hplain] at hhead
    exact hne (Option.some.inj hhead)

theorem flatMap_escape_inj {cs ds rest others : List Char}
    (h : cs.flatMap escape ++ '"' :: rest = ds.flatMap escape ++ '"' :: others) : cs = ds ∧ rest = others := by
  induction cs generalizing ds with
  | nil =>
    cases ds with
    | nil => exact ⟨rfl, (List.cons.inj h).2⟩
    | cons d ds =>
      rw [List.flatMap_cons, List.append_assoc] at h
      exact absurd h.symm (escape_append_ne_quote d _ _)
  | cons c cs ih =>
    rw [List.flatMap_cons, List.append_assoc] at h
    cases ds with
    | nil => exact absurd h (escape_append_ne_quote c _ _)
    | cons d ds =>
      rw [List.flatMap_cons, List.append_assoc] at h
      obtain ⟨rfl, hrest⟩ := escape_append_inj h
      obtain ⟨rfl, hothers⟩ := ih hrest
      exact ⟨rfl, hothers⟩

theorem quoted_append_inj {s s' : String} {rest others : List Char} (h : quoted s ++ rest = quoted s' ++ others) :
    s = s' ∧ rest = others := by
  simp only [quoted, List.cons_append, List.append_assoc, List.nil_append] at h
  obtain ⟨hchars, hrest⟩ := flatMap_escape_inj (List.cons.inj h).2
  exact ⟨String.toList_inj.1 hchars, hrest⟩

/-! ### Members -/

/-- A string or an integer. -/
inductive Plain : Value → Prop
  | string (s : String) : Plain (.string s)
  | integer (n : Int) : Plain (.number (.integer n))


theorem writeChars_append_inj {v w : Value} (hv : Plain v) (hw : Plain w) {rest others : List Char}
    (h : v.writeChars ++ ',' :: rest = w.writeChars ++ ',' :: others) : v = w ∧ rest = others := by
  have hstop : ¬Decimal.isNumeric ',' := by decide
  have hapart (s : String) (n : Int) (rest others : List Char) :
      quoted s ++ rest ≠ Decimal.integerChars n ++ ',' :: others := by
    intro heq
    have htaken := congrArg (List.takeWhile Decimal.isNumeric) heq
    rw [Decimal.takeWhile_integerChars hstop, quoted, List.cons_append,
      List.takeWhile_cons_of_neg (by decide)] at htaken
    rw [← htaken] at heq
    exact absurd (List.cons.inj heq).1 (by decide)
  cases hv with
  | string s =>
    cases hw with
    | string s' =>
      obtain ⟨rfl, hrest⟩ := quoted_append_inj (by simpa only [Value.writeChars] using h)
      exact ⟨rfl, (List.cons.inj hrest).2⟩
    | integer n =>
      simp only [Value.writeChars, Numeral.write] at h
      exact absurd h (hapart s n _ _)
  | integer n =>
    cases hw with
    | string s =>
      simp only [Value.writeChars, Numeral.write] at h
      exact absurd h.symm (hapart s n _ _)
    | integer m =>
      simp only [Value.writeChars, Numeral.write] at h
      obtain ⟨rfl, hrest⟩ := Decimal.integerChars_append_inj hstop hstop h
      exact ⟨rfl, (List.cons.inj hrest).2⟩

theorem writeMembers_cons (name : String) (v : Value) {rest : List (String × Value)} (h : rest ≠ []) :
    writeMembers ((name, v) :: rest) = quoted name ++ ':' :: (v.writeChars ++ ',' :: writeMembers rest) := by
  cases rest with
  | nil => exact absurd rfl h
  | cons next rest => rw [writeMembers]

/-- The members that objects start with can be read off their texts. -/
theorem writeMembers_append_inj {front front' back back' : List (String × Value)} {rest rest' : List Char}
    (hplain : ∀ m ∈ front, Plain m.2) (hplain' : ∀ m ∈ front', Plain m.2) (hlength : front.length = front'.length)
    (hback : back ≠ []) (hback' : back' ≠ [])
    (h : writeMembers (front ++ back) ++ rest = writeMembers (front' ++ back') ++ rest') : front = front' := by
  induction front generalizing front' with
  | nil => exact (List.eq_nil_of_length_eq_zero hlength.symm).symm
  | cons m front ih =>
    obtain _ | ⟨m', front'⟩ := front'
    · cases hlength
    · obtain ⟨hm, hfront⟩ := List.forall_mem_cons.1 hplain
      obtain ⟨hm', hfront'⟩ := List.forall_mem_cons.1 hplain'
      obtain ⟨name, v⟩ := m
      obtain ⟨name', v'⟩ := m'
      rw [List.cons_append, List.cons_append, writeMembers_cons _ _ (List.append_ne_nil_of_right_ne_nil _ hback),
        writeMembers_cons _ _ (List.append_ne_nil_of_right_ne_nil _ hback')] at h
      simp only [List.append_assoc, List.cons_append] at h
      obtain ⟨rfl, hvalues⟩ := quoted_append_inj h
      obtain ⟨rfl, hrest⟩ := writeChars_append_inj hm hm' (List.cons.inj hvalues).2
      rw [ih hfront hfront' (Nat.succ.inj hlength) hrest]

theorem write_object_append_inj {front front' back back' : List (String × Value)} (hplain : ∀ m ∈ front, Plain m.2)
    (hplain' : ∀ m ∈ front', Plain m.2) (hlength : front.length = front'.length) (hback : back ≠ [])
    (hback' : back' ≠ []) (h : (Value.object (front ++ back)).write = (Value.object (front' ++ back')).write) :
    front = front' := by
  have hchars := String.ofList_injective h
  rw [Value.writeChars, Value.writeChars] at hchars
  exact writeMembers_append_inj hplain hplain' hlength hback hback' (List.cons.inj hchars).2

end Json

end Outbox
