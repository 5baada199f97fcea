import Outbox.Metrics.Registry

/-! What stands under a label. Changing one value leaves the others as they are, and the labels stay in order, so that
a counter under a label is one more for each time that it is incremented. -/

namespace Outbox.Metrics

variable {α : Type} {label other : String} {fresh : α} {f : α → α} {values : Labelled α}

/-- No label comes before a smaller one, and none twice. -/
def Ordered (values : Labelled α) : Prop := values.Pairwise fun a b => a.1 < b.1

theorem lookup_alter_of_ne (h : other ≠ label) : (alter label fresh f values).lookup other = values.lookup other := by
  have hne : (other == label) = false := beq_false_of_ne h
  induction values with
  | nil => rw [alter, List.lookup_cons, hne]
  | cons first rest ih =>
    obtain ⟨k, v⟩ := first
    rw [alter]
    split
    · next hk =>
      obtain rfl := beq_iff_eq.1 hk
      rw [List.lookup_cons, List.lookup_cons, hne]
    · split
      · rw [List.lookup_cons, hne]
      · rw [List.lookup_cons, List.lookup_cons, ih]

theorem lookup_eq_none_of_lt (h : ∀ entry ∈ values, label < entry.1) : values.lookup label = none := by
  refine List.lookup_eq_none_iff.2 fun entry hentry => ?_
  have hlt := h entry hentry
  refine bne_iff_ne.2 fun heq => ?_
  rw [heq] at hlt
  exact String.lt_irrefl _ hlt

theorem lookup_alter (h : Ordered values) :
    (alter label fresh f values).lookup label = some (f ((values.lookup label).getD fresh)) := by
  induction values with
  | nil => simp [alter]
  | cons first rest ih =>
    obtain ⟨k, v⟩ := first
    obtain ⟨hfirst, hrest⟩ := List.pairwise_cons.1 h
    rw [alter]
    split
    · next hk =>
      obtain rfl := beq_iff_eq.1 hk
      simp
    · next hk =>
      have hne : (label == k) = false := by rw [BEq.comm]; exact eq_false_of_ne_true hk
      split
      · next hlt =>
        -- The label is below all that follow, so that it is new.
        have hnew : rest.lookup label = none :=
          lookup_eq_none_of_lt fun entry hentry => String.lt_trans hlt (hfirst entry hentry)
        simp [List.lookup_cons, hne, hnew]
      · rw [List.lookup_cons, List.lookup_cons, hne]
        exact ih hrest

/-- A value that is set anew is the one under its label, in whatever order the labels are. -/
theorem lookup_alter_const (v : α) : (alter label fresh (fun _ => v) values).lookup label = some v := by
  induction values with
  | nil => simp [alter]
  | cons first rest ih =>
    rw [alter]
    split
    · next hk =>
      obtain rfl := beq_iff_eq.1 hk
      simp
    · next hk =>
      have hne : (label == first.1) = false := by rw [BEq.comm]; exact eq_false_of_ne_true hk
      split
      · simp
      · rw [List.lookup_cons, hne]
        exact ih

theorem mem_alter {entry : String × α} (h : entry ∈ alter label fresh f values) :
    entry.1 = label ∨ entry ∈ values := by
  induction values with
  | nil => exact .inl (congrArg Prod.fst (List.mem_singleton.1 h))
  | cons first rest ih =>
    rw [alter] at h
    split at h
    · next hk =>
      rcases List.mem_cons.1 h with rfl | h
      · exact .inl (beq_iff_eq.1 hk)
      · exact .inr (List.mem_cons_of_mem _ h)
    · split at h
      · rcases List.mem_cons.1 h with rfl | h
        · exact .inl rfl
        · exact .inr h
      · rcases List.mem_cons.1 h with rfl | h
        · exact .inr List.mem_cons_self
        · exact (ih h).imp_right (List.mem_cons_of_mem _)

theorem Ordered.alter (h : Ordered values) : Ordered (alter label fresh f values) := by
  induction values with
  | nil => exact List.pairwise_singleton _ _
  | cons first rest ih =>
    obtain ⟨k, v⟩ := first
    obtain ⟨hfirst, hrest⟩ := List.pairwise_cons.1 h
    rw [Metrics.alter]
    split
    · exact List.pairwise_cons.2 ⟨hfirst, hrest⟩
    · next hk =>
      split
      · next hlt =>
        refine List.pairwise_cons.2 ⟨fun entry hentry => ?_, h⟩
        rcases List.mem_cons.1 hentry with rfl | hentry
        · exact hlt
        · exact String.lt_trans hlt (hfirst entry hentry)
      · next hge =>
        refine List.pairwise_cons.2 ⟨fun entry hentry => ?_, ih hrest⟩
        rcases mem_alter hentry with heq | hentry
        · rw [heq]
          exact String.not_le.1 fun hle => hk (beq_iff_eq.2 (String.le_antisymm (String.not_lt.1 hge) hle))
        · exact hfirst entry hentry

/-- The number under a label; a counter that was never incremented has none. -/
def counted (counts : Labelled Nat) (label : String) : Nat := (counts.lookup label).getD 0

theorem counted_increment {counts : Labelled Nat} (h : Ordered counts) (label other : String) :
    counted (increment label counts) other = counted counts other + if other = label then 1 else 0 := by
  rw [counted, counted, increment]
  split
  · next heq =>
    subst heq
    rw [lookup_alter h]
    rfl
  · next hne => rw [lookup_alter_of_ne hne, Nat.add_zero]

end Outbox.Metrics
