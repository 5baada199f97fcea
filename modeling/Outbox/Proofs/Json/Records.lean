import Outbox.Json.Record
import Outbox.Proofs.Json.Entries
import Outbox.Proofs.Json.Reading
import Outbox.Proofs.Time.Timestamps

/-! Reading written records. A record is read from the text of an object with all its members if each of their values is
read as its kind, whatever their order; and it is not read if one of them is not. -/

namespace Outbox.Json

open Utf8 (encode)

variable {α β : Type} {f : Numeral → Numeral} {rest : Bytes}

/-! ### Kinds -/

theorem Reads.map {read : Bytes → Outcome α} {text : Bytes} {fits : Prop} {a : α} (h : Reads read text fits a)
    (k : α → β) : Reads (fun bytes => (read bytes).map fun (x, rest) => (k x, rest)) text fits (k a) := by
  intro rest hrest
  obtain ⟨hfit, hmisfit⟩ := h rest hrest
  refine ⟨fun hfits => ?_, fun hfits => ?_⟩
  · dsimp only
    rw [hfit hfits]
    rfl
  · obtain ⟨stop, hstop⟩ := hmisfit hfits
    dsimp only
    rw [hstop]
    exact ⟨stop, rfl⟩

theorem readText_quoted (s : String) (rest : Bytes) : readText (encode (quoted s) ++ rest) = .ok (s, rest) := by
  have hstart (bytes : Bytes) : readText (quote :: bytes) = readString bytes := rfl
  rw [encode_quoted, List.cons_append, hstart, List.append_assoc, List.singleton_append, readString_quoted]

theorem reads_text (s : String) : Reads Kind.text.read (encode (Value.string s).writeChars) True (.text s) := by
  have h : Reads readText (encode (quoted s)) True s := fun rest _ =>
    ⟨fun _ => readText_quoted s rest, fun hmisfit => absurd trivial hmisfit⟩
  exact h.map Item.text

theorem reads_integer {low high n : Int} (hlow : low ≤ n) (hhigh : n ≤ high) (hn : IsStored n) :
    Reads (Kind.integer low high).read (encode (Value.number (.integer n)).writeChars) True (.integer n) := by
  have h : Reads (readBounded low high) (encode (Decimal.integerChars n)) True n := by
    intro rest hrest
    refine ⟨fun _ => ?_, fun hmisfit => absurd trivial hmisfit⟩
    obtain ⟨b, bytes, htext, hb, hread⟩ := readsNumber_integer hn
    have hminus : minus = 45 := rfl
    rw [htext, List.cons_append, readBounded, skipBlanks_cons (numeric_cases hb).1]
    dsimp only
    rw [hminus, if_pos hb, hread rest hrest]
    exact if_pos ⟨hlow, hhigh⟩
  exact h.map Item.integer

theorem reads_moment (i : Instant) :
    Reads Kind.moment.read (encode (Value.string (Timestamp.write i)).writeChars) True (.moment i) := by
  have h : Reads readMoment (encode (quoted (Timestamp.write i))) True (i : Timestamp) := fun rest _ => by
    refine ⟨fun _ => ?_, fun hmisfit => absurd trivial hmisfit⟩
    rw [readMoment, readText_quoted]
    dsimp only
    rw [Timestamp.read?_write]
  exact h.map Item.moment

/-- A text under a name. -/
def readNamedText : Bytes → Outcome (String × String) := readMember readString fun name bytes =>
  match readText bytes with
  | .error stop => .error stop
  | .ok (text, rest) => .ok ((name, text), rest)

theorem readTextMap_open (bytes : Bytes) : readTextMap (objectOpen :: bytes) =
    match readObject (fun _ => readNamedText) bytes with
    | .error stop => .error stop
    | .ok (members, rest) => .ok (sortEntries members, rest) := rfl

theorem readTextMap_object (bytes : Bytes) : readTextMap (objectOpen :: bytes) =
    (readObject (fun _ => readNamedText) bytes).bind fun (members, rest) => .ok (sortEntries members, rest) := by
  rw [readTextMap_open]
  cases readObject (fun _ => readNamedText) bytes <;> rfl

theorem reads_namedText (name text : String) :
    Reads readNamedText (memberText name (encode (quoted text))) True (name, text) := by
  refine reads_member fun rest _ => ⟨fun _ => ?_, fun hmisfit => absurd trivial hmisfit⟩
  rw [readText_quoted]

/-- Texts under names are read in the order of the names. -/
theorem reads_textMap (entries : List (String × String)) :
    Reads Kind.textMap.read (encode (Value.object (entries.map fun (name, text) => (name, .string text))).writeChars) True
      (.textMap (sortEntries entries)) := by
  have hopens : ∀ e ∈ entries, Opens objectClose (memberText e.1 (encode (quoted e.2))) := fun e _ => opens_memberText _ _
  have hseq := (sequence_object fun _ => readNamedText).reads hopens numberOver_objectClose fun _ e _ _ =>
    reads_namedText e.1 e.2
  have h := hseq.bracket sortEntries readTextMap_object ⟨fun _ _ _ => trivial, fun _ => trivial⟩
  rw [encode_object, List.map_map]
  rw [List.map_id'] at h
  exact h.map Item.textMap

theorem reads_any (v : Value) (h : v.AllNumbers fun n => ReadsNumber (encode n.write) (f n)) :
    Reads Kind.any.read (encode v.writeChars) (v.depth ≤ 126) (.any (v.echo f)) :=
  (reads_writeChars f 126 v h).map Item.any

/-! ### Members -/

/-- A member of a record: its value, the kind that this is read as, and what it is then read as if it fits. -/
structure Slot where
  name : String
  kind : Kind
  value : Value
  fits : Prop
  item : Item

theorem readNamed_of_readString {fields : Fields} {done : List (Option (String × Item))} {name : String} {bytes : Bytes}
    (h : readString bytes = .ok (name, colon :: rest)) (hfirst : ¬done.any fun member => member.any (·.1 == name)) :
    readNamed fields done (quote :: bytes) = match fields.lookup name with
      | none => (skipValue rest).map fun (_, rest) => (none, rest)
      | some kind => (kind.read rest).map fun (item, rest) => (some (name, item), rest) := by
  unfold readNamed
  split
  · next heq =>
    obtain rfl := (List.cons.inj heq).2
    rw [h]
    dsimp only
    rw [if_neg hfirst]
    exact readMember_of_readString h
  · next hother => exact absurd rfl (hother bytes)

namespace Slot

def IsReadable (s : Slot) : Prop := Reads s.kind.read (encode s.value.writeChars) s.fits s.item

variable {slots before after : List Slot} {s : Slot}

/-- An integer in a range of at most 64 bits is read from its text. -/
theorem isReadable_integer {low high n : Int} (h : low ≤ n ∧ n ≤ high) (hlow : -9223372036854775808 ≤ low)
    (hhigh : high < 18446744073709551616) (name : String) :
    IsReadable ⟨name, .integer low high, .number (.integer n), True, .integer n⟩ :=
  reads_integer h.1 h.2 ⟨hlow.trans h.1, Int.lt_of_le_of_lt h.2 hhigh⟩

theorem lookup_name (hnames : (slots.map name).Nodup) (hslots : slots = before ++ s :: after) (k : Slot → α) :
    (slots.map fun s => (s.name, k s)).lookup s.name = some (k s) := by
  rw [List.lookup_eq_some_iff]
  refine ⟨before.map fun s => (s.name, k s), after.map fun s => (s.name, k s), ?_, ?_⟩
  · rw [hslots, List.map_append, List.map_cons]
  · rw [hslots, List.map_append, List.nodup_append] at hnames
    rw [List.forall_mem_map]
    intro earlier hearlier
    have hne := hnames.2.2 earlier.name (List.mem_map_of_mem hearlier) s.name List.mem_cons_self
    exact bne_iff_ne.2 hne.symm

theorem reads_readNamed (hnames : (slots.map name).Nodup) (hslots : slots = before ++ s :: after) (h : s.IsReadable) :
    Reads (readNamed (slots.map fun s => (s.name, s.kind)) (before.map fun s => some (s.name, s.item)).reverse)
      (memberText s.name (encode s.value.writeChars)) s.fits (some (s.name, s.item)) := by
  -- no member before this one has its name, so it is not refused as the second of that name
  have hfirst : ¬(before.map fun s => some (s.name, s.item)).reverse.any fun member => member.any (·.1 == s.name) := by
    rw [hslots, List.map_append, List.nodup_append] at hnames
    rw [List.any_reverse, List.any_map, List.any_eq_true]
    rintro ⟨earlier, hearlier, hname⟩
    exact hnames.2.2 earlier.name (List.mem_map_of_mem hearlier) s.name List.mem_cons_self (beq_iff_eq.1 hname)
  intro rest hrest
  have hname := readString_quoted s.name (colon :: (encode s.value.writeChars ++ rest))
  rw [memberText, encode_quoted, List.cons_append, List.cons_append, List.append_assoc, List.append_assoc,
    List.singleton_append, List.cons_append, readNamed_of_readString hname hfirst, lookup_name hnames hslots kind]
  exact h.map (fun item => some (s.name, item)) rest hrest

end Slot

theorem readRecord_open (fields : Fields) (bytes : Bytes) : readRecord fields (objectOpen :: bytes) =
    match readObject (readNamed fields) bytes with
    | .error stop => .error stop
    | .ok (members, rest) =>
      match collectItems fields members with
      | some items => .ok (items, rest)
      | none => stopHere .unsuitable rest := rfl

theorem mapM_eq_some_map {γ : Type} {k : α → Option β} {g : γ → α} {item : γ → β} {xs : List γ}
    (h : ∀ x ∈ xs, k (g x) = some (item x)) : (xs.map g).mapM k = some (xs.map item) := by
  induction xs with
  | nil => rfl
  | cons x xs ih =>
    obtain ⟨hx, hxs⟩ := List.forall_mem_cons.1 h
    rw [List.map_cons, List.mapM_cons, hx, ih hxs]
    rfl

theorem collectItems_slots {slots : List Slot} (hnames : (slots.map Slot.name).Nodup) :
    collectItems (slots.map fun s => (s.name, s.kind)) (slots.map fun s => some (s.name, s.item)) =
      some (slots.map Slot.item) := by
  have hmembers : (slots.map fun s => some (s.name, s.item)).filterMap id = slots.map fun s => (s.name, s.item) := by
    rw [List.filterMap_map]
    exact congrFun List.filterMap_eq_map slots
  rw [collectItems, hmembers]
  refine mapM_eq_some_map fun s hs => ?_
  obtain ⟨before, after, hslots⟩ := List.append_of_mem hs
  exact Slot.lookup_name hnames hslots Slot.item

/-- A record is read from the text of its members if each of them is read. -/
theorem reads_record {slots : List Slot} (hnames : (slots.map Slot.name).Nodup) (h : ∀ s ∈ slots, s.IsReadable) :
    Reads (readRecord (slots.map fun s => (s.name, s.kind)))
      (encode (Value.object (slots.map fun s => (s.name, s.value))).writeChars) (∀ s ∈ slots, s.fits)
      (slots.map Slot.item) := by
  have hopens : ∀ s ∈ slots, Opens objectClose (memberText s.name (encode s.value.writeChars)) := fun s _ =>
    opens_memberText _ _
  have hmembers : Reads (readObject (readNamed (slots.map fun s => (s.name, s.kind))))
      (separated (slots.map fun s => memberText s.name (encode s.value.writeChars)) ++ [objectClose])
      (∀ s ∈ slots, s.fits) (slots.map fun s => some (s.name, s.item)) :=
    (sequence_object _).reads hopens numberOver_objectClose fun before s after hslots =>
      Slot.reads_readNamed hnames hslots (h s (hslots ▸ List.mem_append_right _ List.mem_cons_self))
  have htext : encode (Value.object (slots.map fun s => (s.name, s.value))).writeChars = objectOpen ::
      (separated (slots.map fun s => memberText s.name (encode s.value.writeChars)) ++ [objectClose]) := by
    rw [encode_object, List.map_map]
    rfl
  intro rest hrest
  obtain ⟨hfit, hmisfit⟩ := hmembers rest hrest
  rw [htext, List.cons_append, readRecord_open]
  refine ⟨fun hfits => ?_, fun hfits => ?_⟩
  · rw [hfit hfits]
    dsimp only
    rw [collectItems_slots hnames]
  · obtain ⟨stop, hstop⟩ := hmisfit hfits
    rw [hstop]
    exact ⟨stop, rfl⟩

theorem parseRecord_encode {slots : List Slot} (hnames : (slots.map Slot.name).Nodup)
    (h : ∀ s ∈ slots, s.IsReadable) :
    let text := encode (Value.object (slots.map fun s => (s.name, s.value))).writeChars
    ((∀ s ∈ slots, s.fits) →
      parseRecord (slots.map fun s => (s.name, s.kind)) text = .ok (slots.map Slot.item)) ∧
    ((¬∀ s ∈ slots, s.fits) → ∃ e, parseRecord (slots.map fun s => (s.name, s.kind)) text = .error e) := by
  intro text
  obtain ⟨hfit, hmisfit⟩ := reads_record hnames h [] nofun
  rw [List.append_nil] at hfit hmisfit
  refine ⟨fun hfits => ?_, fun hfits => ?_⟩
  · rw [parseRecord, hfit hfits]
    rfl
  · obtain ⟨stop, hstop⟩ := hmisfit hfits
    rw [parseRecord, hstop]
    exact ⟨_, rfl⟩

end Outbox.Json
