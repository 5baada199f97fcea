import Outbox.Proofs.Json.Entries
import Outbox.Proofs.Json.Layouts
import Outbox.Proofs.Json.Reading

/-! Values that were read. They are not nested deeper than the reader goes, their numbers are in range, and the members
of their objects are in the order of their names; so such a value is read again once it is written, and as itself if its
numbers are. -/

namespace Outbox.Json

open Utf8 (encode)

variable {α : Type} {p q : Numeral → Prop} {deep : Nat} {bytes rest : Bytes} {v : Value}

/-! ### Elements -/

/-- What a reader of a sequence has done once it got to its end: it read one element after the other. -/
structure Elementwise (element : List α → Bytes → Outcome α) (whole : Bytes → Outcome (List α))
    (more : Nat → List α → Bytes → Outcome (List α)) : Prop where
  start : ∀ bytes xs rest, whole bytes = .ok (xs, rest) → xs = [] ∨ ∃ fuel next x after,
    element [] next = .ok (x, after) ∧ more fuel [x] after = .ok (xs, rest)
  out : ∀ done bytes xs rest, more 0 done bytes ≠ .ok (xs, rest)
  go : ∀ fuel done bytes xs rest, more (fuel + 1) done bytes = .ok (xs, rest) → xs = done.reverse ∨ ∃ next x after,
    element done next = .ok (x, after) ∧ more fuel (x :: done) after = .ok (xs, rest)

theorem elementwise_list (element : Bytes → Outcome α) :
    Elementwise (fun _ => element) (readList element) (listRest element) where
  start bytes xs rest h := by
    rw [readList] at h
    split at h
    · cases h
    · cases h
      exact .inl rfl
    · split at h
      · cases h
      · next hx => exact .inr ⟨_, _, _, _, hx, h⟩
  out done bytes xs rest := nofun
  go fuel done bytes xs rest h := by
    rw [listRest] at h
    split at h
    · cases h
    · cases h
      exact .inl rfl
    · split at h
      · cases h
      · cases h
      · split at h
        · cases h
        · next hx => exact .inr ⟨_, _, _, hx, h⟩
    · cases h

theorem elementwise_object (member : List α → Bytes → Outcome α) :
    Elementwise member (readObject member) (objectRest member) where
  start bytes xs rest h := by
    rw [readObject] at h
    split at h
    · cases h
    · cases h
      exact .inl rfl
    · split at h
      · cases h
      · next hx => exact .inr ⟨_, _, _, _, hx, h⟩
  out done bytes xs rest := nofun
  go fuel done bytes xs rest h := by
    rw [objectRest] at h
    split at h
    · cases h
    · cases h
      exact .inl rfl
    · split at h
      · cases h
      · cases h
      · split at h
        · cases h
        · next hx => exact .inr ⟨_, _, _, hx, h⟩
    · cases h

namespace Elementwise

variable {element : List α → Bytes → Outcome α} {whole : Bytes → Outcome (List α)}
  {more : Nat → List α → Bytes → Outcome (List α)} {good : α → Prop} {xs : List α}

theorem forall_more (h : Elementwise element whole more)
    (helement : ∀ done bytes x rest, element done bytes = .ok (x, rest) → good x) {fuel : Nat} {done : List α}
    (hdone : ∀ x ∈ done, good x) (hread : more fuel done bytes = .ok (xs, rest)) : ∀ x ∈ xs, good x := by
  induction fuel generalizing done bytes with
  | zero => exact absurd hread (h.out _ _ _ _)
  | succ fuel ih =>
    obtain rfl | ⟨_, x, _, hx, hmore⟩ := h.go _ _ _ _ _ hread
    · exact fun x hx => hdone x (List.mem_reverse.1 hx)
    · exact ih (List.forall_mem_cons.2 ⟨helement _ _ _ _ hx, hdone⟩) hmore

/-- What holds of each element that can be read holds of all elements of a sequence that was read. -/
theorem forall_whole (h : Elementwise element whole more)
    (helement : ∀ done bytes x rest, element done bytes = .ok (x, rest) → good x)
    (hread : whole bytes = .ok (xs, rest)) : ∀ x ∈ xs, good x := by
  obtain rfl | ⟨_, _, x, _, hx, hmore⟩ := h.start _ _ _ hread
  · exact List.forall_mem_nil _
  · exact h.forall_more helement (List.forall_mem_singleton.2 (helement _ _ _ _ hx)) hmore

end Elementwise

/-- The value of a member was read as a value. -/
theorem exists_of_readEntry {m : String × Value} (h : readEntry deep bytes = .ok (m, rest)) :
    ∃ bytes, readValue deep bytes = .ok (m.2, rest) := by
  rw [readEntry] at h
  unfold readMember at h
  split at h
  · split at h
    · cases h
    · split at h
      · cases h
      · dsimp only at h
        split at h
        · cases h
        · next hv =>
          cases h
          exact ⟨_, hv⟩
      · cases h
  · cases h

/-! ### Values -/

/-- What a value is like that was read. -/
structure IsRead (deep : Nat) (v : Value) : Prop where
  depth_le : v.depth ≤ deep
  numbers : v.AllNumbers Numeral.IsProper
  echo_eq : ∀ f, (v.AllNumbers fun n => f n = n) → v.echo f = v

theorem isRead_array {items : List Value} (h : ∀ v ∈ items, IsRead deep v) : IsRead (deep + 1) (.array items) where
  depth_le := Nat.succ_le_succ (itemsDepth_le_iff.2 fun v hv => (h v hv).depth_le)
  numbers := itemsAllNumbers_iff.2 fun v hv => (h v hv).numbers
  echo_eq f hf := by
    have hitems := itemsAllNumbers_iff.1 hf
    rw [Value.echo, echoItems_eq_map, List.map_congr_left fun v hv => (h v hv).echo_eq f (hitems v hv), List.map_id']

theorem isRead_object {members : List (String × Value)} (h : ∀ m ∈ members, IsRead deep m.2) :
    IsRead (deep + 1) (.object (sortEntries members)) := by
  have hsorted : ∀ m ∈ sortEntries members, IsRead deep m.2 := fun m hm => h m (mem_of_mem_sortEntries hm)
  refine ⟨Nat.succ_le_succ (membersDepth_le_iff.2 fun m hm => (hsorted m hm).depth_le),
    membersAllNumbers_iff.2 fun m hm => (hsorted m hm).numbers, fun f hf => ?_⟩
  have hnumbers := membersAllNumbers_iff.1 hf
  have hmembers : ∀ m ∈ sortEntries members, (m.1, m.2.echo f) = m := fun m hm =>
    Prod.ext rfl ((hsorted m hm).echo_eq f (hnumbers m hm))
  rw [Value.echo, echoMembers_eq_map, List.map_congr_left hmembers, List.map_id',
    (ascending_sortEntries members).sortEntries_eq_self]

theorem isRead_readScalar {b : UInt8} (h : readScalar b bytes = .ok (v, rest)) (deep : Nat) : IsRead deep v := by
  rw [readScalar] at h
  split at h
  · split at h
    · cases h
    · cases h
      exact ⟨Nat.zero_le _, trivial, fun _ _ => rfl⟩
  · split at h
    · split at h
      · cases h
      · next hn =>
        cases h
        exact ⟨Nat.zero_le _, isProper_readNumber hn, fun f hf => congrArg Value.number hf⟩
    · rw [wordTail] at h
      split at h
      · cases h
      · next hword =>
        split at h
        · cases h
        · cases h
          split_ifs at hword
          all_goals
            cases hword
            exact ⟨Nat.zero_le _, trivial, fun _ _ => rfl⟩

/-- A value that was read is as `IsRead` says. -/
theorem isRead_readValue (h : readValue deep bytes = .ok (v, rest)) : IsRead deep v := by
  induction deep generalizing bytes v rest with
  | zero =>
    rw [readValue.eq_def] at h
    dsimp only at h
    split at h
    · cases h
    · cases h
    · cases h
    · exact isRead_readScalar h 0
  | succ deep ih =>
    rw [readValue.eq_def] at h
    dsimp only at h
    split at h
    · cases h
    · split at h
      · cases h
      · next hitems =>
        cases h
        exact isRead_array ((elementwise_list _).forall_whole (fun _ _ _ _ => ih) hitems)
    · split at h
      · cases h
      · next hmembers =>
        cases h
        refine isRead_object ((elementwise_object _).forall_whole (fun _ _ m _ hm => ?_) hmembers)
        have hentry : readEntry deep _ = .ok (m, _) := hm
        obtain ⟨_, hv⟩ := exists_of_readEntry hentry
        exact ih hv
    · exact isRead_readScalar h (deep + 1)

/-! ### Whole texts -/

/-- A value that a whole text holds was read. -/
theorem isRead_of_parse {text : Bytes} (h : parse text = .ok v) : IsRead deepest v := by
  rw [parse] at h
  cases hread : readValue deepest text with
  | error stop =>
    rw [hread] at h
    cases h
  | ok result =>
    obtain ⟨v', rest⟩ := result
    rw [hread] at h
    cases hend : readEnd rest with
    | error stop =>
      simp only [hend, bind, Except.bind, Except.mapError] at h
      cases h
    | ok =>
      simp only [hend, bind, Except.bind, Except.mapError, pure, Except.pure] at h
      cases h
      exact isRead_readValue hread

/-- The text of a value holds its echo, unless the value is nested too deep. -/
theorem parse_encode {f : Numeral → Numeral} (h : v.AllNumbers fun n => ReadsNumber (encode n.write) (f n)) :
    (v.depth ≤ deepest → parse (encode v.writeChars) = .ok (v.echo f)) ∧
      (¬v.depth ≤ deepest → ∃ e, parse (encode v.writeChars) = .error e) := by
  obtain ⟨hfits, hdeeper⟩ := reads_writeChars f deepest v h [] nofun
  rw [List.append_nil] at hfits hdeeper
  refine ⟨fun hdepth => ?_, fun hdepth => ?_⟩
  · rw [parse, hfits hdepth]
    rfl
  · obtain ⟨stop, hstop⟩ := hdeeper hdepth
    rw [parse, hstop]
    exact ⟨_, rfl⟩

mutual

theorem Value.AllNumbers.imp (h : ∀ n, p n → q n) : (v : Value) → v.AllNumbers p → v.AllNumbers q
  | .array items, hv => itemsAllNumbers_imp h items hv
  | .object members, hv => membersAllNumbers_imp h members hv
  | .number n, hv => h n hv
  | .null, _ | .bool _, _ | .string _, _ => trivial

theorem itemsAllNumbers_imp (h : ∀ n, p n → q n) :
    (items : List Value) → ItemsAllNumbers p items → ItemsAllNumbers q items
  | [], _ => trivial
  | v :: rest, ⟨hv, hrest⟩ => ⟨Value.AllNumbers.imp h v hv, itemsAllNumbers_imp h rest hrest⟩

theorem membersAllNumbers_imp (h : ∀ n, p n → q n) :
    (members : List (String × Value)) → MembersAllNumbers p members → MembersAllNumbers q members
  | [], _ => trivial
  | (_, v) :: rest, ⟨hv, hrest⟩ => ⟨Value.AllNumbers.imp h v hv, membersAllNumbers_imp h rest hrest⟩

end

/-- A value whose numbers are read as themselves is read again from its text, with the members of its objects in the
order of their names. -/
theorem parse_write_of_reads (hnumbers : v.AllNumbers fun n => ReadsNumber (encode n.write) n) (hdepth : v.depth ≤ deepest) :
    parse (Utf8.ofString v.write) = .ok (v.echo id) := by
  rw [Value.write, Utf8.ofString_ofList]
  exact (parse_encode hnumbers).1 hdepth

theorem parse_write (hnumbers : v.AllNumbers fun n => ∃ i, n = .integer i ∧ IsStored i) (hdepth : v.depth ≤ deepest) :
    parse (Utf8.ofString v.write) = .ok (v.echo id) := by
  refine parse_write_of_reads (hnumbers.imp ?_) hdepth
  rintro _ ⟨i, rfl, hi⟩
  exact readsNumber_integer hi

/-- There is something that every number in range is read as once it is written, and for integers it is themselves. -/
theorem exists_echo : ∃ f : Numeral → Numeral, (∀ n, n.IsProper → ReadsNumber (encode n.write) (f n)) ∧
    ∀ i, IsStored i → f (.integer i) = .integer i := by
  choose! f hread hinteger using fun n (h : Numeral.IsProper n) => exists_readsNumber h
  exact ⟨f, hread, fun i hi => hinteger (.integer i) hi i rfl⟩

end Outbox.Json
