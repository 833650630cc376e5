import Haptics.Table

/-!
# Tables in order

A table whose keys stand in order (`Table.Ordered`) has each key once, so what is looked up is what
is listed (`get?_of_mem`). An insertion and a removal keep the order.
-/

namespace Haptics

/-- The keys can be put in a row in one way only. -/
class LawfulRanked (κ : Type) [Ranked κ] : Prop where
  /-- No key comes before itself. -/
  irrefl : ∀ a : κ, Ranked.before a a = false
  /-- What comes before comes before all that follows. -/
  trans : ∀ {a b c : κ},
    Ranked.before a b = true → Ranked.before b c = true → Ranked.before a c = true
  /-- Of two keys one comes first. -/
  total : ∀ {a b : κ}, a ≠ b → Ranked.before a b = true ∨ Ranked.before b a = true

/-- Whole numbers stand in the row of their size. -/
instance : LawfulRanked Int where
  irrefl a := by simp [Ranked.before]
  trans {a b c} := by simp only [Ranked.before, decide_eq_true_eq]; omega
  total {a b} := by simp only [Ranked.before, decide_eq_true_eq]; omega

/-- Bytes stand in the row of their values. -/
instance : LawfulRanked UInt8 where
  irrefl a := by simp [Ranked.before]
  trans {a b c} := by simp only [Ranked.before, decide_eq_true_eq, UInt8.lt_iff_toNat_lt]; omega
  total {a b} := by
    simp only [Ranked.before, decide_eq_true_eq, UInt8.lt_iff_toNat_lt, ne_eq,
      ← UInt8.toNat_inj]
    omega

namespace Table

variable {κ ν : Type} [DecidableEq κ]

/-! ## Any list of pairs -/

/-- What is found is in the table. -/
theorem mem_of_get?_eq_some {t : Table κ ν} {key : κ} {value : ν} (h : t.get? key = some value) :
    (key, value) ∈ t := by
  induction t with
  | nil => simp at h
  | cons entry rest ih =>
    obtain ⟨k, v⟩ := entry
    rw [get?_cons] at h
    split at h
    · next hk =>
      cases hk
      cases h
      exact List.mem_cons_self
    · exact List.mem_cons_of_mem _ (ih h)

/-- A change of all values changes the one that is found. -/
theorem get?_map {μ : Type} (f : ν → μ) (t : Table κ ν) (key : κ) :
    get? (t.map fun entry => (entry.1, f entry.2)) key = (t.get? key).map f := by
  induction t with
  | nil => rfl
  | cons entry rest ih =>
    rw [List.map_cons, get?_cons, get?_cons, ih]
    split <;> rfl

/-- An empty table has no key. -/
@[simp] theorem has_nil (key : κ) : has ([] : Table κ ν) key = false := rfl

/-- A key is that of the first entry, or one of the others. -/
theorem has_cons (k : κ) (v : ν) (rest : Table κ ν) (key : κ) :
    has ((k, v) :: rest) key = true ↔ k = key ∨ has rest key = true := by
  unfold has
  rw [get?_cons]
  split <;> simp [*]

/-- The keys that have a value are those that are listed. -/
theorem has_eq_true_iff (t : Table κ ν) (key : κ) : t.has key = true ↔ key ∈ t.keys := by
  induction t with
  | nil => simp [keys]
  | cons entry rest ih =>
    obtain ⟨k, v⟩ := entry
    rw [has_cons, ih]
    simp [keys, eq_comm]

/-- A table has the keys of its entries. -/
theorem has_of_mem {t : Table κ ν} {entry : κ × ν} (h : entry ∈ t) : t.has entry.1 = true :=
  (has_eq_true_iff t entry.1).2 (List.mem_map_of_mem h)

/-- A table has the key that is put in, and those it had. -/
theorem has_insert [Ranked κ] (t : Table κ ν) (key other : κ) (value : ν) :
    (t.insert key value).has other = true ↔ key = other ∨ t.has other = true := by
  unfold has
  rw [get?_insert]
  split <;> simp [*]

/-- Nothing is in a table after an entry is taken out that was not before. -/
theorem mem_erase {t : Table κ ν} {key : κ} {entry : κ × ν} (h : entry ∈ t.erase key) :
    entry ∈ t :=
  (List.mem_filter.1 h).1

/-- Nothing new is in a table but the entry that is put in. -/
theorem mem_insert [Ranked κ] {t : Table κ ν} {key : κ} {value : ν} {entry : κ × ν}
    (h : entry ∈ t.insert key value) : entry = (key, value) ∨ entry ∈ t := by
  induction t with
  | nil => exact .inl (by simpa [insert] using h)
  | cons first rest ih =>
    unfold insert at h
    split at h
    · rcases List.mem_cons.1 h with h | h
      · exact .inl h
      · exact .inr (List.mem_cons_of_mem _ h)
    · split at h
      · exact List.mem_cons.1 h
      · rcases List.mem_cons.1 h with h | h
        · exact .inr (h ▸ List.mem_cons_self)
        · exact (ih h).imp_right (List.mem_cons_of_mem _)

/-- What is found when only some of the keys are left. -/
theorem get?_filter (p : κ → Bool) (t : Table κ ν) (key : κ) :
    get? (t.filter fun entry => p entry.1) key = if p key then t.get? key else none := by
  induction t with
  | nil => simp
  | cons entry rest ih =>
    obtain ⟨k, v⟩ := entry
    by_cases hk : k = key
    · subst hk
      by_cases hp : p k = true
      · simp [hp, get?_cons]
      · simpa [hp] using ih
    · by_cases hp : p k = true
      · simpa [hp, get?_cons, hk] using ih
      · simpa [hp, get?_cons, hk] using ih

/-- Puts the values of a table in place, in the order of their keys. -/
def insertAll [Ranked κ] (t more : Table κ ν) : Table κ ν :=
  more.foldl (fun t entry => t.insert entry.1 entry.2) t

/-- To put nothing in leaves a table as it is. -/
@[simp] theorem insertAll_nil [Ranked κ] (t : Table κ ν) : t.insertAll [] = t := rfl

/-- Entries are put in one by one. -/
@[simp] theorem insertAll_cons [Ranked κ] (t : Table κ ν) (entry : κ × ν) (rest : Table κ ν) :
    t.insertAll (entry :: rest) = (t.insert entry.1 entry.2).insertAll rest := rfl

/-! ## Tables in order -/

section Ordered

variable [Ranked κ]

/-- Whether the keys stand in order. -/
def Ordered (t : Table κ ν) : Prop :=
  t.Pairwise fun a b => Ranked.before a.1 b.1 = true

/-- Whether a table is in order is told by its keys. -/
instance (t : Table κ ν) : Decidable t.Ordered :=
  inferInstanceAs (Decidable (t.Pairwise _))

omit [DecidableEq κ] in
/-- Only the keys matter. -/
theorem ordered_map {μ : Type} (f : ν → μ) {t : Table κ ν} :
    Ordered (t.map fun entry => (entry.1, f entry.2)) ↔ t.Ordered :=
  List.pairwise_map

/-- A table stays in order when an entry is taken out. -/
theorem ordered_erase {t : Table κ ν} (h : t.Ordered) (key : κ) : (t.erase key).Ordered :=
  h.filter _

variable [LawfulRanked κ]

/-- The first key is not listed again. -/
theorem Ordered.not_has_head {k : κ} {v : ν} {rest : Table κ ν}
    (h : Ordered ((k, v) :: rest)) : rest.has k = false := by
  rw [Bool.eq_false_iff]
  intro hk
  obtain ⟨entry, hm, he⟩ := List.mem_map.1 ((has_eq_true_iff rest k).1 hk)
  have hb : Ranked.before k entry.1 = true := List.rel_of_pairwise_cons h hm
  rw [he, LawfulRanked.irrefl] at hb
  exact Bool.false_ne_true hb

/-- What is listed under a key is what is found there. -/
theorem Ordered.get?_of_mem {t : Table κ ν} (h : t.Ordered) {key : κ} {value : ν}
    (hm : (key, value) ∈ t) : t.get? key = some value := by
  induction t with
  | nil => simp at hm
  | cons entry rest ih =>
    obtain ⟨k, v⟩ := entry
    rw [get?_cons]
    rcases List.mem_cons.1 hm with he | hm
    · cases he
      rw [if_pos rfl]
    · have hk : k ≠ key := by
        intro hk
        have hno := h.not_has_head
        rw [hk, has_of_mem hm] at hno
        exact Bool.noConfusion hno
      rw [if_neg hk]
      exact ih h.of_cons hm

/-- A table stays in order when an entry is put in. -/
theorem Ordered.insert {t : Table κ ν} (h : t.Ordered) (key : κ) (value : ν) :
    (t.insert key value).Ordered := by
  induction t with
  | nil => exact List.pairwise_singleton _ _
  | cons entry rest ih =>
    obtain ⟨k, v⟩ := entry
    obtain ⟨hfirst, hrest⟩ := List.pairwise_cons.1 h
    unfold Table.insert
    split
    · next hk => exact List.pairwise_cons.2 ⟨fun a ha => hk ▸ hfirst a ha, hrest⟩
    · next hk =>
      split
      · next hb =>
        refine List.pairwise_cons.2 ⟨fun a ha => ?_, h⟩
        rcases List.mem_cons.1 ha with he | ha
        · exact he ▸ hb
        · exact LawfulRanked.trans hb (hfirst a ha)
      · next hb =>
        -- the key is neither here nor before, so it comes later
        have hafter : Ranked.before k key = true := (LawfulRanked.total hk).resolve_right hb
        refine List.pairwise_cons.2 ⟨fun a ha => ?_, ih hrest⟩
        rcases mem_insert ha with he | ha
        · exact he ▸ hafter
        · exact hfirst a ha

/-- So it does when many are. -/
theorem Ordered.insertAll {t : Table κ ν} (h : t.Ordered) (more : Table κ ν) :
    (t.insertAll more).Ordered := by
  induction more generalizing t with
  | nil => exact h
  | cons entry rest ih => exact ih (h.insert entry.1 entry.2)

/-- What is found after several insertions: a new value where there is one, all else as before. -/
theorem get?_insertAll (t : Table κ ν) {more : Table κ ν} (h : more.Ordered) (key : κ) :
    (t.insertAll more).get? key = (more.get? key).or (t.get? key) := by
  induction more generalizing t with
  | nil => rfl
  | cons entry rest ih =>
    obtain ⟨k, v⟩ := entry
    rw [insertAll_cons, ih _ h.of_cons, get?_insert, get?_cons]
    by_cases hk : k = key
    · -- the key does not come again
      subst hk
      have hno : get? rest k = none := by simpa [has] using h.not_has_head
      simp [hno]
    · simp [hk]

/-- To put a value where it already is changes nothing. -/
theorem Ordered.insert_of_get? {t : Table κ ν} (h : t.Ordered) {key : κ} {value : ν}
    (hk : t.get? key = some value) : t.insert key value = t := by
  induction t with
  | nil => cases hk
  | cons entry rest ih =>
    obtain ⟨k, v⟩ := entry
    rw [get?_cons] at hk
    unfold Table.insert
    by_cases he : k = key
    · rw [if_pos he] at hk ⊢
      cases he
      cases hk
      rfl
    · rw [if_neg he] at hk ⊢
      have hafter : Ranked.before k key = true :=
        List.rel_of_pairwise_cons h (mem_of_get?_eq_some hk)
      have hno : ¬ Ranked.before key k = true := by
        intro hb
        have hself := LawfulRanked.trans hafter hb
        rw [LawfulRanked.irrefl] at hself
        cases hself
      rw [if_neg hno, ih h.of_cons hk]

end Ordered

end Table

end Haptics
