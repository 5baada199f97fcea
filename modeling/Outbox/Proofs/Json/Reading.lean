import Outbox.Proofs.Json.Numbers
import Outbox.Proofs.Json.Strings

/-! Reading written values. A value that is not nested deeper than the reader goes is read again: its strings, words and
lists as they were, its numbers as their texts are read, and the members of its objects in the order of their names. One
that is nested deeper is not read at all. -/

namespace Outbox.Json

open Utf8 (encode)

variable {α β : Type}

/-! ### Values and their parts -/

mutual

/-- The lists and objects that are open at once in the text of a value, at the most. -/
def Value.depth : Value → Nat
  | .array items => itemsDepth items + 1
  | .object members => membersDepth members + 1
  | .null | .bool _ | .number _ | .string _ => 0

def itemsDepth : List Value → Nat
  | [] => 0
  | v :: rest => max v.depth (itemsDepth rest)

def membersDepth : List (String × Value) → Nat
  | [] => 0
  | (_, v) :: rest => max v.depth (membersDepth rest)

end

mutual

/-- A condition holds of each number in a value. -/
def Value.AllNumbers (p : Numeral → Prop) : Value → Prop
  | .array items => ItemsAllNumbers p items
  | .object members => MembersAllNumbers p members
  | .number n => p n
  | .null | .bool _ | .string _ => True

def ItemsAllNumbers (p : Numeral → Prop) : List Value → Prop
  | [] => True
  | v :: rest => v.AllNumbers p ∧ ItemsAllNumbers p rest

def MembersAllNumbers (p : Numeral → Prop) : List (String × Value) → Prop
  | [] => True
  | (_, v) :: rest => v.AllNumbers p ∧ MembersAllNumbers p rest

end

mutual

/-- What a value is read as once it is written, if `f` is what its numbers are read as. -/
def Value.echo (f : Numeral → Numeral) : Value → Value
  | .array items => .array (echoItems f items)
  | .object members => .object (sortEntries (echoMembers f members))
  | .number n => .number (f n)
  | .null => .null
  | .bool b => .bool b
  | .string s => .string s

def echoItems (f : Numeral → Numeral) : List Value → List Value
  | [] => []
  | v :: rest => v.echo f :: echoItems f rest

def echoMembers (f : Numeral → Numeral) : List (String × Value) → List (String × Value)
  | [] => []
  | (name, v) :: rest => (name, v.echo f) :: echoMembers f rest

end

variable {p : Numeral → Prop} {f : Numeral → Numeral} {deep : Nat}

theorem itemsDepth_le_iff {items : List Value} : itemsDepth items ≤ deep ↔ ∀ v ∈ items, v.depth ≤ deep := by
  induction items with
  | nil => simp [itemsDepth]
  | cons v rest ih => rw [itemsDepth, Nat.max_le, ih, List.forall_mem_cons]

theorem membersDepth_le_iff {members : List (String × Value)} :
    membersDepth members ≤ deep ↔ ∀ m ∈ members, m.2.depth ≤ deep := by
  induction members with
  | nil => simp [membersDepth]
  | cons m rest ih => rw [membersDepth, Nat.max_le, ih, List.forall_mem_cons]

theorem itemsAllNumbers_iff {items : List Value} : ItemsAllNumbers p items ↔ ∀ v ∈ items, v.AllNumbers p := by
  induction items with
  | nil => simp [ItemsAllNumbers]
  | cons v rest ih => rw [ItemsAllNumbers, ih, List.forall_mem_cons]

theorem membersAllNumbers_iff {members : List (String × Value)} :
    MembersAllNumbers p members ↔ ∀ m ∈ members, m.2.AllNumbers p := by
  induction members with
  | nil => simp [MembersAllNumbers]
  | cons m rest ih => rw [MembersAllNumbers, ih, List.forall_mem_cons]

theorem echoItems_eq_map (items : List Value) : echoItems f items = items.map (·.echo f) := by
  induction items with
  | nil => rfl
  | cons v rest ih => rw [echoItems, ih, List.map_cons]

theorem echoMembers_eq_map (members : List (String × Value)) :
    echoMembers f members = members.map fun m => (m.1, m.2.echo f) := by
  induction members with
  | nil => rfl
  | cons m rest ih => rw [echoMembers, ih, List.map_cons]

/-! ### Sequences -/

/-- A text at the front of any bytes is read as `a` and no further if it fits, and is not read at all otherwise. -/
def Reads (read : Bytes → Outcome α) (text : Bytes) (fits : Prop) (a : α) : Prop :=
  ∀ rest, NumberOver rest →
    (fits → read (text ++ rest) = .ok (a, rest)) ∧ (¬fits → ∃ stop, read (text ++ rest) = .error stop)

theorem numberOver_comma (rest : Bytes) : NumberOver (comma :: rest) := by
  rintro b ⟨⟩
  decide

theorem numberOver_listClose (rest : Bytes) : NumberOver (listClose :: rest) := by
  rintro b ⟨⟩
  decide

theorem numberOver_objectClose (rest : Bytes) : NumberOver (objectClose :: rest) := by
  rintro b ⟨⟩
  decide

theorem skipBlanks_cons {b : UInt8} (h : ¬isBlank b) (bytes : Bytes) : skipBlanks (b :: bytes) = b :: bytes :=
  List.dropWhile_cons_of_neg h

/-- A text that is neither a blank nor the end of a sequence at its start. -/
def Opens (close : UInt8) (text : Bytes) : Prop := ∃ b bytes, text = b :: bytes ∧ ¬isBlank b ∧ b ≠ close

/-- A reader of what stands between commas up to a closing bracket, and how it goes on after an element. -/
structure Sequence (close : UInt8) (element : List α → Bytes → Outcome α) (whole : Bytes → Outcome (List α))
    (more : Nat → List α → Bytes → Outcome (List α)) : Prop where
  empty : ∀ rest, whole (close :: rest) = .ok ([], rest)
  first : ∀ b bytes, ¬isBlank b → b ≠ close → whole (b :: bytes) =
    (element [] (b :: bytes)).bind fun (x, rest) => more (bytes.length + 2) [x] rest
  ending : ∀ fuel done rest, more (fuel + 1) done (close :: rest) = .ok (done.reverse, rest)
  next : ∀ fuel done b bytes, ¬isBlank b → b ≠ close → more (fuel + 1) done (comma :: b :: bytes) =
    (element done (b :: bytes)).bind fun (x, rest) => more fuel (x :: done) rest

theorem listRest_comma (element : Bytes → Outcome α) (fuel : Nat) (done : List α) (bytes : Bytes) :
    listRest element (fuel + 1) done (comma :: bytes) = match skipBlanks bytes with
      | [] => stopAtNext .eofInValue []
      | listClose :: after => stopAtNext .trailingComma (listClose :: after)
      | next =>
        match element next with
        | .error stop => .error stop
        | .ok (x, rest) => listRest element fuel (x :: done) rest := rfl

theorem sequence_list (element : Bytes → Outcome α) :
    Sequence listClose (fun _ => element) (readList element) (listRest element) where
  empty rest := rfl
  first b bytes hblank hclose := by
    rw [readList, skipBlanks_cons hblank]
    split
    · next heq => cases heq
    · next heq => exact absurd (List.cons.inj heq).1 hclose
    · cases element (b :: bytes) <;> rfl
  ending fuel done rest := rfl
  next fuel done b bytes hblank hclose := by
    rw [listRest_comma, skipBlanks_cons hblank]
    split
    · next heq => cases heq
    · next heq => exact absurd (List.cons.inj heq).1 hclose
    · cases element (b :: bytes) <;> rfl

theorem objectRest_comma (member : List α → Bytes → Outcome α) (fuel : Nat) (done : List α) (bytes : Bytes) :
    objectRest member (fuel + 1) done (comma :: bytes) = match skipBlanks bytes with
      | [] => stopAtNext .eofInValue []
      | objectClose :: after => stopAtNext .trailingComma (objectClose :: after)
      | next =>
        match member done next with
        | .error stop => .error stop
        | .ok (x, rest) => objectRest member fuel (x :: done) rest := rfl

theorem sequence_object (member : List α → Bytes → Outcome α) :
    Sequence objectClose member (readObject member) (objectRest member) where
  empty rest := rfl
  first b bytes hblank hclose := by
    rw [readObject, skipBlanks_cons hblank]
    split
    · next heq => cases heq
    · next heq => exact absurd (List.cons.inj heq).1 hclose
    · cases member [] (b :: bytes) <;> rfl
  ending fuel done rest := rfl
  next fuel done b bytes hblank hclose := by
    rw [objectRest_comma, skipBlanks_cons hblank]
    split
    · next heq => cases heq
    · next heq => exact absurd (List.cons.inj heq).1 hclose
    · cases member done (b :: bytes) <;> rfl

/-- Texts with commas between them. -/
def separated : List Bytes → Bytes
  | [] => []
  | text :: texts => text ++ texts.flatMap (comma :: ·)

theorem length_le_flatMap_comma (texts : List Bytes) : texts.length ≤ (texts.flatMap (comma :: ·)).length := by
  induction texts with
  | nil => exact Nat.le_refl 0
  | cons text texts ih =>
    rw [List.flatMap_cons, List.length_append, List.length_cons, List.length_cons]
    omega

namespace Sequence

variable {close : UInt8} {element : List α → Bytes → Outcome α} {whole : Bytes → Outcome (List α)}
  {more : Nat → List α → Bytes → Outcome (List α)} {text : β → Bytes} {fits : β → Prop} {g : β → α} {x : β}
  {items : List β} {done : List α} {rest : Bytes} {fuel : Nat}

/-- All elements are read, after those in `done`; or none, if one of them does not fit. -/
def Completes (fits : β → Prop) (g : β → α) (items : List β) (done : List α) (rest : Bytes)
    (outcome : Outcome (List α)) : Prop :=
  ((∀ x ∈ items, fits x) → outcome = .ok (done.reverse ++ items.map g, rest)) ∧
    ((∃ x ∈ items, ¬fits x) → ∃ stop, outcome = .error stop)

/-- What follows an element: the others, each after a comma, and the end of the sequence. -/
def following (close : UInt8) (text : β → Bytes) (items : List β) (rest : Bytes) : Bytes :=
  (items.map text).flatMap (comma :: ·) ++ close :: rest

theorem numberOver_following (hover : ∀ rest, NumberOver (close :: rest)) (items : List β) (rest : Bytes) :
    NumberOver (following close text items rest) := by
  cases items with
  | nil => exact hover rest
  | cons x items => exact numberOver_comma _

/-- An element is read, and then the others. -/
theorem Completes.cons (hx : Reads (element done) (text x) (fits x) (g x))
    (hover : ∀ rest, NumberOver (close :: rest))
    (hmore : Completes fits g items (g x :: done) rest (more fuel (g x :: done) (following close text items rest))) :
    Completes fits g (x :: items) done rest
      ((element done (text x ++ following close text items rest)).bind fun (y, rest) => more fuel (y :: done) rest) := by
  obtain ⟨hfit, hmisfit⟩ := hx _ (numberOver_following hover items rest)
  obtain ⟨hall, hsome⟩ := hmore
  by_cases hx : fits x
  · rw [hfit hx]
    refine ⟨fun h => (hall (List.forall_mem_cons.1 h).2).trans ?_, fun ⟨y, hy, hnot⟩ => ?_⟩
    · rw [List.reverse_cons, List.append_assoc]
      rfl
    · rcases List.mem_cons.1 hy with rfl | hy
      · exact absurd hx hnot
      · exact hsome ⟨y, hy, hnot⟩
  · obtain ⟨stop, hstop⟩ := hmisfit hx
    rw [hstop]
    exact ⟨fun h => absurd (h x List.mem_cons_self) hx, fun _ => ⟨stop, rfl⟩⟩

/-- The elements after the first. -/
theorem completes_more (hseq : Sequence close element whole more) (hopens : ∀ x ∈ items, Opens close (text x))
    (hover : ∀ rest, NumberOver (close :: rest)) (hfuel : items.length < fuel)
    (hread : ∀ before x after, items = before ++ x :: after →
      Reads (element ((before.map g).reverse ++ done)) (text x) (fits x) (g x)) (rest : Bytes) :
    Completes fits g items done rest (more fuel done (following close text items rest)) := by
  -- each element moves to `done`, so the elements before it, of which `hread` speaks, grow by one
  induction items generalizing fuel done with
  | nil =>
    obtain ⟨fuel, rfl⟩ := Nat.exists_eq_succ_of_ne_zero (Nat.ne_of_gt hfuel)
    refine ⟨fun _ => ?_, fun ⟨x, hx, _⟩ => absurd hx List.not_mem_nil⟩
    exact (hseq.ending fuel done rest).trans (by rw [List.map_nil, List.append_nil])
  | cons x items ih =>
    obtain ⟨fuel, rfl⟩ := Nat.exists_eq_succ_of_ne_zero (Nat.ne_of_gt (Nat.lt_of_le_of_lt (Nat.zero_le _) hfuel))
    obtain ⟨⟨b, bytes, htext, hblank, hclose⟩, hitems⟩ := List.forall_mem_cons.1 hopens
    have hnext : more (fuel + 1) done (following close text (x :: items) rest) =
        (element done (text x ++ following close text items rest)).bind fun (y, rest) => more fuel (y :: done) rest := by
      rw [following, List.map_cons, List.flatMap_cons, List.append_assoc, List.cons_append, htext]
      exact hseq.next fuel done b (bytes ++ following close text items rest) hblank hclose
    rw [hnext]
    refine .cons (hread [] x items rfl) hover (ih hitems (Nat.lt_of_succ_lt_succ hfuel) fun before y later heq => ?_)
    have hlater := hread (x :: before) y later (congrArg (x :: ·) heq)
    rwa [List.map_cons, List.reverse_cons, List.append_assoc] at hlater

/-- A sequence is read if each of its elements is, and not at all otherwise. -/
theorem reads (hseq : Sequence close element whole more) (hopens : ∀ x ∈ items, Opens close (text x))
    (hover : ∀ rest, NumberOver (close :: rest))
    (hread : ∀ before x after, items = before ++ x :: after →
      Reads (element (before.map g).reverse) (text x) (fits x) (g x)) :
    Reads whole (separated (items.map text) ++ [close]) (∀ x ∈ items, fits x) (items.map g) := by
  intro rest _
  cases items with
  | nil => exact ⟨fun _ => hseq.empty rest, fun h => absurd (fun _ hx => absurd hx List.not_mem_nil) h⟩
  | cons x items =>
    obtain ⟨⟨b, bytes, htext, hblank, hclose⟩, hitems⟩ := List.forall_mem_cons.1 hopens
    have hfuel : items.length < (bytes ++ following close text items rest).length + 2 := by
      have hlength := length_le_flatMap_comma (items.map text)
      rw [List.length_map] at hlength
      rw [following, List.length_append, List.length_append]
      omega
    have hfirst : whole (separated ((x :: items).map text) ++ [close] ++ rest) =
        (element [] (text x ++ following close text items rest)).bind fun (y, left) =>
          more ((bytes ++ following close text items rest).length + 2) [y] left := by
      rw [List.map_cons, separated, List.append_assoc, List.append_assoc, List.singleton_append, htext]
      exact hseq.first b (bytes ++ following close text items rest) hblank hclose
    have hx : Reads (element []) (text x) (fits x) (g x) := hread [] x items rfl
    obtain ⟨hall, hsome⟩ := Completes.cons hx hover
      (hseq.completes_more hitems hover hfuel (fun before y later heq => by
        have hlater := hread (x :: before) y later (congrArg (x :: ·) heq)
        rwa [List.map_cons, List.reverse_cons] at hlater) rest)
    rw [hfirst]
    refine ⟨hall, fun h => hsome ?_⟩
    by_contra hnone
    exact h fun y hy => not_not.1 fun hmisfit => hnone ⟨y, hy, hmisfit⟩

end Sequence

/-! ### Members and scalars -/

theorem readMember_of_readString {element : String → Bytes → Outcome α} {name : String} {bytes rest : Bytes}
    (h : readString bytes = .ok (name, colon :: rest)) :
    readMember readString element (quote :: bytes) = element name rest := by
  unfold readMember
  split
  · next heq =>
    obtain rfl := (List.cons.inj heq).2
    rw [h]
    rfl
  · next hother => exact absurd rfl (hother bytes)

/-- The text of a member of an object. -/
def memberText (name : String) (text : Bytes) : Bytes := encode (quoted name) ++ colon :: text

theorem opens_memberText (name : String) (text : Bytes) : Opens objectClose (memberText name text) :=
  ⟨quote, _, by rw [memberText, encode_quoted, List.cons_append], by decide, by decide⟩

theorem reads_member {element : String → Bytes → Outcome α} {name : String} {text : Bytes} {fits : Prop} {a : α}
    (h : Reads (element name) text fits a) :
    Reads (readMember readString element) (memberText name text) fits a := by
  intro rest hrest
  have hname := readString_quoted name (colon :: (text ++ rest))
  rw [memberText, encode_quoted, List.cons_append, List.cons_append, List.append_assoc, List.append_assoc, List.singleton_append,
    List.cons_append, readMember_of_readString hname]
  exact h rest hrest

theorem readValue_listOpen (deep : Nat) (bytes : Bytes) : readValue (deep + 1) (listOpen :: bytes) =
    match readList (readValue deep) bytes with
    | .error stop => .error stop
    | .ok (items, rest) => .ok (.array items, rest) := rfl

theorem readValue_list (deep : Nat) (bytes : Bytes) : readValue (deep + 1) (listOpen :: bytes) =
    (readList (readValue deep) bytes).bind fun (items, rest) => .ok (.array items, rest) := by
  rw [readValue_listOpen]
  cases readList (readValue deep) bytes <;> rfl

/-- A member of an object: its name and its value. -/
def readEntry (deep : Nat) : Bytes → Outcome (String × Value) := readMember readString fun name bytes =>
  match readValue deep bytes with
  | .error stop => .error stop
  | .ok (v, rest) => .ok ((name, v), rest)

theorem readValue_objectOpen (deep : Nat) (bytes : Bytes) : readValue (deep + 1) (objectOpen :: bytes) =
    match readObject (fun _ => readEntry deep) bytes with
    | .error stop => .error stop
    | .ok (members, rest) => .ok (.object (sortEntries members), rest) := rfl

theorem readValue_object (deep : Nat) (bytes : Bytes) : readValue (deep + 1) (objectOpen :: bytes) =
    (readObject (fun _ => readEntry deep) bytes).bind fun (members, rest) =>
      .ok (.object (sortEntries members), rest) := by
  rw [readValue_objectOpen]
  cases readObject (fun _ => readEntry deep) bytes <;> rfl

theorem readValue_scalar {b : UInt8} (hblank : ¬isBlank b) (hlist : b ≠ listOpen) (hobject : b ≠ objectOpen)
    (deep : Nat) (bytes : Bytes) : readValue deep (b :: bytes) = readScalar b bytes := by
  rw [readValue.eq_def]
  dsimp only
  rw [skipBlanks_cons hblank]
  split
  · next heq => cases heq
  · next heq => exact absurd (List.cons.inj heq).1 hlist
  · next heq => exact absurd (List.cons.inj heq).1 hobject
  · next heq =>
    obtain ⟨rfl, rfl⟩ := List.cons.inj heq
    rfl

theorem reads_entry {text : Bytes} {fits : Prop} {v : Value} (h : Reads (readValue deep) text fits v) (name : String) :
    Reads (readEntry deep) (memberText name text) fits (name, v) := by
  refine reads_member fun rest hrest => ?_
  obtain ⟨hfits, hnot⟩ := h rest hrest
  refine ⟨fun hv => ?_, fun hv => ?_⟩
  · rw [hfits hv]
  · obtain ⟨stop, hstop⟩ := hnot hv
    rw [hstop]
    exact ⟨stop, rfl⟩

/-! ### Written values -/

theorem encode_writeItems (items : List Value) :
    encode (writeItems items) = separated (items.map fun v => encode v.writeChars) := by
  induction items with
  | nil => rfl
  | cons v rest ih =>
    cases rest with
    | nil =>
      rw [writeItems]
      exact (List.append_nil _).symm
    | cons w rest =>
      rw [writeItems, Utf8.encode_append, Utf8.encode_cons, ih]
      rfl

theorem encode_writeMembers (members : List (String × Value)) :
    encode (writeMembers members) = separated (members.map fun m => memberText m.1 (encode m.2.writeChars)) := by
  induction members with
  | nil => rfl
  | cons m rest ih =>
    obtain ⟨name, v⟩ := m
    cases rest with
    | nil =>
      rw [writeMembers, Utf8.encode_append, Utf8.encode_cons]
      exact (List.append_nil _).symm
    | cons next rest =>
      have hcolon : Utf8.encodeChar ':' = [colon] := rfl
      have hcomma : Utf8.encodeChar ',' = [comma] := rfl
      rw [writeMembers, Utf8.encode_append, Utf8.encode_cons, Utf8.encode_append, Utf8.encode_cons, ih, hcolon, hcomma]
      simp only [List.map_cons, separated, memberText, List.flatMap_cons, List.append_assoc, List.cons_append,
        List.nil_append]

theorem encode_array (items : List Value) : encode (Value.array items).writeChars =
    listOpen :: (separated (items.map fun v => encode v.writeChars) ++ [listClose]) := by
  rw [Value.writeChars, Utf8.encode_cons, Utf8.encode_append, encode_writeItems]
  rfl

theorem encode_object (members : List (String × Value)) : encode (Value.object members).writeChars =
    objectOpen :: (separated (members.map fun m => memberText m.1 (encode m.2.writeChars)) ++ [objectClose]) := by
  rw [Value.writeChars, Utf8.encode_cons, Utf8.encode_append, encode_writeMembers]
  rfl

theorem numeric_cases {b : UInt8} (h : b = 45 ∨ isDigit b) :
    ¬isBlank b ∧ b ≠ quote ∧ b ≠ listOpen ∧ b ≠ listClose ∧ b ≠ objectOpen := by
  rcases h with rfl | h
  · decide
  · refine ⟨fun hblank => ?_, ?_, ?_, ?_, ?_⟩
    · simp only [isBlank, Bool.or_eq_true, beq_iff_eq] at hblank
      rcases hblank with ((rfl | rfl) | rfl) | rfl <;> cases h
    all_goals
      rintro rfl
      cases h

/-- No written value starts with a blank or like the end of a sequence. -/
theorem opens_writeChars {v : Value} (h : v.AllNumbers fun n => ReadsNumber (encode n.write) (f n)) :
    Opens listClose (encode v.writeChars) := by
  cases v with
  | null => exact ⟨110, _, rfl, by decide, by decide⟩
  | bool b => cases b <;> exact ⟨_, _, rfl, by decide, by decide⟩
  | string s => exact ⟨quote, _, encode_quoted s, by decide, by decide⟩
  | array items => exact ⟨listOpen, _, rfl, by decide, by decide⟩
  | object members => exact ⟨objectOpen, _, rfl, by decide, by decide⟩
  | number n =>
    obtain ⟨b, bytes, htext, hb, -⟩ := h
    obtain ⟨hblank, -, -, hclose, -⟩ := numeric_cases hb
    exact ⟨b, bytes, htext, hblank, hclose⟩

theorem reads_scalar {text bytes : Bytes} {b : UInt8} {v : Value} (htext : text = b :: bytes) (hblank : ¬isBlank b)
    (hlist : b ≠ listOpen) (hobject : b ≠ objectOpen)
    (hread : ∀ rest, NumberOver rest → readScalar b (bytes ++ rest) = .ok (v, rest)) (deep : Nat) :
    Reads (readValue deep) text (0 ≤ deep) v := by
  intro rest hrest
  rw [htext, List.cons_append, readValue_scalar hblank hlist hobject, hread rest hrest]
  exact ⟨fun _ => rfl, fun h => absurd (Nat.zero_le deep) h⟩

theorem readScalar_quoted (s : String) (rest : Bytes) :
    readScalar quote (encode (s.toList.flatMap escape) ++ [quote] ++ rest) = .ok (.string s, rest) := by
  rw [readScalar, if_pos rfl, List.append_assoc, List.singleton_append, readString_quoted]

theorem readScalar_number {b : UInt8} (hb : b = 45 ∨ isDigit b) {bytes rest : Bytes} {n : Numeral}
    (h : readNumber (b == 45) (if b = 45 then bytes else b :: bytes) = .ok (n, rest)) :
    readScalar b bytes = .ok (.number n, rest) := by
  have hminus : minus = 45 := rfl
  rw [readScalar, if_neg (numeric_cases hb).2.1, hminus, if_pos hb, h]

/-- A value that is neither a list nor an object is read by every reader. -/
theorem reads_atom {v : Value} (h : v.AllNumbers fun n => ReadsNumber (encode n.write) (f n))
    (harray : ∀ items, v ≠ .array items) (hobject : ∀ members, v ≠ .object members) (deep : Nat) :
    Reads (readValue deep) (encode v.writeChars) (v.depth ≤ deep) (v.echo f) := by
  cases v with
  | null => exact reads_scalar rfl (by decide) (by decide) (by decide) (fun _ _ => rfl) deep
  | bool b => cases b <;> exact reads_scalar rfl (by decide) (by decide) (by decide) (fun _ _ => rfl) deep
  | string s =>
    exact reads_scalar (encode_quoted s) (by decide) (by decide) (by decide) (fun rest _ => readScalar_quoted s rest) deep
  | number n =>
    obtain ⟨b, bytes, htext, hb, hread⟩ := h
    obtain ⟨hblank, -, hlist, -, hobject⟩ := numeric_cases hb
    exact reads_scalar htext hblank hlist hobject (fun rest hrest => readScalar_number hb (hread rest hrest)) deep
  | array items => exact absurd rfl (harray items)
  | object members => exact absurd rfl (hobject members)

/-- A bracket and a sequence are read as what the sequence is read as. -/
theorem Reads.bracket {read : Bytes → Outcome α} {read' : Bytes → Outcome β} {b : UInt8} {text : Bytes} {fits fits' : Prop}
    {a : α} (h : Reads read text fits a) (k : α → β)
    (hread : ∀ bytes, read' (b :: bytes) = (read bytes).bind fun (x, rest) => .ok (k x, rest)) (hfits : fits' ↔ fits) :
    Reads read' (b :: text) fits' (k a) := by
  intro rest hrest
  obtain ⟨hfit, hmisfit⟩ := h rest hrest
  rw [List.cons_append, hread]
  refine ⟨fun h => ?_, fun h => ?_⟩
  · rw [hfit (hfits.1 h)]
    rfl
  · obtain ⟨stop, hstop⟩ := hmisfit (mt hfits.2 h)
    rw [hstop]
    exact ⟨stop, rfl⟩

/-- A condition on the numbers of a value, and what the value's text is then read as. -/
def ReadsEcho (f : Numeral → Numeral) (deep : Nat) : Prop :=
  ∀ v : Value, (v.AllNumbers fun n => ReadsNumber (encode n.write) (f n)) →
    Reads (readValue deep) (encode v.writeChars) (v.depth ≤ deep) (v.echo f)

theorem reads_array (hdeep : ReadsEcho f deep) {items : List Value}
    (h : (Value.array items).AllNumbers fun n => ReadsNumber (encode n.write) (f n)) :
    Reads (readValue (deep + 1)) (encode (Value.array items).writeChars) ((Value.array items).depth ≤ deep + 1)
      ((Value.array items).echo f) := by
  have hitems := itemsAllNumbers_iff.1 h
  have hseq := (sequence_list (readValue deep)).reads (fun v hv => opens_writeChars (hitems v hv))
    numberOver_listClose fun before v after heq =>
      hdeep v (hitems v (heq ▸ List.mem_append_right _ List.mem_cons_self))
  rw [encode_array, Value.echo, echoItems_eq_map]
  refine hseq.bracket Value.array (readValue_list deep) ?_
  rw [Value.depth, Nat.add_le_add_iff_right, itemsDepth_le_iff]

theorem reads_object (hdeep : ReadsEcho f deep) {members : List (String × Value)}
    (h : (Value.object members).AllNumbers fun n => ReadsNumber (encode n.write) (f n)) :
    Reads (readValue (deep + 1)) (encode (Value.object members).writeChars) ((Value.object members).depth ≤ deep + 1)
      ((Value.object members).echo f) := by
  have hmembers := membersAllNumbers_iff.1 h
  have hopens : ∀ m ∈ members, Opens objectClose (memberText m.1 (encode m.2.writeChars)) := fun m _ =>
    opens_memberText m.1 _
  have hseq := (sequence_object fun _ => readEntry deep).reads hopens
    numberOver_objectClose fun before m after heq =>
      reads_entry (hdeep m.2 (hmembers m (heq ▸ List.mem_append_right _ List.mem_cons_self))) m.1
  rw [encode_object, Value.echo, echoMembers_eq_map]
  refine hseq.bracket (fun members => Value.object (sortEntries members)) (readValue_object deep) ?_
  rw [Value.depth, Nat.add_le_add_iff_right, membersDepth_le_iff]

/-- A list or an object is nested too deep for a reader that may not open any. -/
theorem reads_closed {text bytes : Bytes} {b : UInt8} {v : Value} (htext : text = b :: bytes)
    (hb : b = listOpen ∨ b = objectOpen) (hdepth : v.depth ≠ 0) : Reads (readValue 0) text (v.depth ≤ 0) (v.echo f) := by
  intro rest _
  refine ⟨fun h => absurd (Nat.le_zero.1 h) hdepth, fun _ => ?_⟩
  rw [htext]
  rcases hb with rfl | rfl <;> exact ⟨_, rfl⟩

/-- A written value is read as its echo, unless it is nested too deep. -/
theorem reads_writeChars (f : Numeral → Numeral) (deep : Nat) : ReadsEcho f deep := by
  -- not on the value: a reader goes down by the lists and objects that it may still open
  induction deep with
  | zero =>
    intro v h
    cases v with
    | array items => exact reads_closed rfl (.inl rfl) (Nat.succ_ne_zero _)
    | object members => exact reads_closed rfl (.inr rfl) (Nat.succ_ne_zero _)
    | null | bool | string | number => exact reads_atom h nofun nofun 0
  | succ deep ih =>
    intro v h
    cases v with
    | array items => exact reads_array ih h
    | object members => exact reads_object ih h
    | null | bool | string | number => exact reads_atom h nofun nofun (deep + 1)

end Outbox.Json
