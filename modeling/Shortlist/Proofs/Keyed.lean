import Mathlib.Data.String.Basic
import Shortlist.Keyed

/-!
# Lists with sorted keys

What `Keyed.insert` does to the keys: the list stays sorted, the key finds its new value, and every
other key finds what it found before.  A sorted list is built up again by inserting its pairs one
after another, and pairs of new keys are added to any list, wherever in it they come to stand.
-/

namespace Shortlist.Keyed

variable {α : Type} {m : Keyed α} {key : String} {value : α}

/-- The keys increase from pair to pair. -/
def Sorted (m : Keyed α) : Prop := m.Pairwise fun a b => a.1 < b.1

/-! ## 1. Finding -/

/-- **An inserted key finds its value**, and any other key what it found before. -/
theorem find?_insert (other key : String) (value : α) :
    ∀ m : Keyed α, find? other (insert key value m) = if other = key then some value else find? other m
  | [] => rfl
  | (k, v) :: rest => by
    rw [insert]
    split
    · rw [find?]
    · split
      · rename_i hk
        subst hk
        rw [find?, find?]
        split
        · rfl
        · rfl
      · rename_i hk
        rw [find?, find?, find?_insert other key value rest]
        split
        · rename_i hother
          subst hother
          rw [if_neg (Ne.symm hk)]
        · rfl

/-- Behind a list, a key finds what it does not find in the list. -/
theorem find?_append (a b : Keyed α) : find? key (a ++ b) = (find? key a).or (find? key b) := by
  induction a with
  | nil => rfl
  | cons p a ih =>
    obtain ⟨k, v⟩ := p
    rw [List.cons_append, find?, find?, ih]
    split
    · rfl
    · rfl

/-- A key that is not there finds nothing. -/
theorem find?_eq_none (h : ∀ p ∈ m, p.1 ≠ key) : find? key m = none := by
  induction m with
  | nil => rfl
  | cons p m ih =>
    obtain ⟨k, v⟩ := p
    obtain ⟨hk, hm⟩ := List.forall_mem_cons.mp h
    rw [find?, if_neg (Ne.symm hk), ih hm]

/-- Of several pairs the first one is inserted first. -/
theorem insertAll_cons (key : String) (value : α) (pairs : List (String × α)) (m : Keyed α) :
    insertAll ((key, value) :: pairs) m = insertAll pairs (insert key value m) := rfl

/-- **Of several inserted pairs the last one counts.** -/
theorem find?_insertAll (pairs : List (String × α)) (m : Keyed α) :
    find? key (insertAll pairs m) = (find? key pairs.reverse).or (find? key m) := by
  induction pairs generalizing m with
  | nil => rfl
  | cons p pairs ih =>
    obtain ⟨k, v⟩ := p
    rw [insertAll_cons, ih, find?_insert, List.reverse_cons, find?_append, Option.or_assoc]
    congr 1
    rw [find?, find?]
    split
    · rfl
    · rfl

/-! ## 2. Sorted lists -/

/-- Inserting adds at most the pair. -/
theorem mem_insert {p : String × α} (h : p ∈ insert key value m) : p = (key, value) ∨ p ∈ m := by
  induction m with
  | nil => exact Or.inl (List.mem_singleton.mp h)
  | cons q m ih =>
    obtain ⟨k, v⟩ := q
    rw [insert] at h
    split at h
    · exact List.mem_cons.mp h
    · split at h
      · exact (List.mem_cons.mp h).imp_right (List.mem_cons_of_mem _)
      · rcases List.mem_cons.mp h with rfl | h
        · exact Or.inr List.mem_cons_self
        · exact (ih h).imp_right (List.mem_cons_of_mem _)

/-- **Inserting keeps a list sorted.** -/
theorem Sorted.insert (h : Sorted m) (key : String) (value : α) :
    Sorted (Keyed.insert key value m) := by
  induction m with
  | nil => exact List.pairwise_singleton _ _
  | cons q m ih =>
    obtain ⟨k, v⟩ := q
    obtain ⟨hk, hm⟩ := List.pairwise_cons.mp h
    rw [Keyed.insert]
    split
    · rename_i hlt
      refine List.pairwise_cons.mpr ⟨fun p hp => ?_, h⟩
      rcases List.mem_cons.mp hp with rfl | hp
      · exact hlt
      · exact lt_trans hlt (hk p hp)
    · split
      · rename_i heq
        subst heq
        exact List.pairwise_cons.mpr ⟨hk, hm⟩
      · rename_i hlt hne
        refine List.pairwise_cons.mpr ⟨fun p hp => ?_, ih hm⟩
        rcases mem_insert hp with rfl | hp
        · exact lt_of_le_of_ne (not_lt.mp hlt) (Ne.symm hne)
        · exact hk p hp

/-- **Inserting pairs keeps a list sorted.** -/
theorem Sorted.insertAll (h : Sorted m) (pairs : List (String × α)) :
    Sorted (Keyed.insertAll pairs m) := by
  induction pairs generalizing m with
  | nil => exact h
  | cons p pairs ih => exact ih (h.insert p.1 p.2)

/-- In a sorted list it makes no difference from which end a key is looked for. -/
theorem Sorted.find?_reverse (h : Sorted m) : find? key m.reverse = find? key m := by
  induction m with
  | nil => rfl
  | cons p m ih =>
    obtain ⟨k, v⟩ := p
    obtain ⟨hk, hm⟩ := List.pairwise_cons.mp h
    rw [List.reverse_cons, find?_append, ih hm]
    by_cases heq : key = k
    · subst heq
      have hnone : find? key m = none := find?_eq_none fun q hq => ne_of_gt (hk q hq)
      simp [find?, hnone]
    · simp [find?, heq]

/-- In a sorted list the key of a pair finds the value of that pair. -/
theorem Sorted.find?_of_mem (h : Sorted m) (hmem : (key, value) ∈ m) : find? key m = some value := by
  induction m with
  | nil => exact absurd hmem List.not_mem_nil
  | cons p m ih =>
    obtain ⟨k, v⟩ := p
    obtain ⟨hk, hm⟩ := List.pairwise_cons.mp h
    rcases List.mem_cons.mp hmem with heq | hmem
    · cases heq
      exact if_pos rfl
    · rw [find?, if_neg (ne_of_gt (hk _ hmem)), ih hm hmem]

/-- A key behind all others is inserted at the end. -/
theorem insert_last (h : ∀ p ∈ m, p.1 < key) : insert key value m = m ++ [(key, value)] := by
  induction m with
  | nil => rfl
  | cons p m ih =>
    obtain ⟨k, v⟩ := p
    obtain ⟨hk, hm⟩ := List.forall_mem_cons.mp h
    rw [insert, if_neg (lt_asymm hk), if_neg (ne_of_gt hk), ih hm, List.cons_append]

/-- A key in front of all others is inserted at the front. -/
theorem insert_before (h : ∀ p ∈ m, key < p.1) : insert key value m = (key, value) :: m := by
  cases m with
  | nil => rfl
  | cons p m =>
    obtain ⟨k, v⟩ := p
    rw [insert, if_pos (h (k, v) List.mem_cons_self)]

/-- **Inserting the pairs of a sorted list** behind smaller keys appends the list. -/
theorem insertAll_sorted (pairs : List (String × α)) (h : Sorted (m ++ pairs)) :
    insertAll pairs m = m ++ pairs := by
  induction pairs generalizing m with
  | nil => rw [List.append_nil]; rfl
  | cons p pairs ih =>
    obtain ⟨k, v⟩ := p
    have hlast : ∀ q ∈ m, q.1 < k := fun q hq =>
      (List.pairwise_append.mp h).2.2 q hq (k, v) List.mem_cons_self
    have happend : m ++ (k, v) :: pairs = m ++ [(k, v)] ++ pairs := by
      rw [List.append_assoc, List.singleton_append]
    rw [insertAll_cons, insert_last hlast, happend, ih (happend ▸ h)]

/-! ## 3. New keys -/

/-- A key that is not there is added with its value. -/
theorem insert_perm (h : key ∉ m.map Prod.fst) :
    (insert key value m).Perm ((key, value) :: m) := by
  induction m with
  | nil => exact List.Perm.refl _
  | cons p m ih =>
    obtain ⟨k, v⟩ := p
    rw [List.map_cons, List.mem_cons, not_or] at h
    rw [insert]
    split
    · exact List.Perm.refl _
    · rw [if_neg h.1]
      exact ((ih h.2).cons (k, v)).trans (List.Perm.swap _ _ _)

/-- **Pairs of new keys** are added as they are. -/
theorem insertAll_perm {pairs : List (String × α)} (hpairs : (pairs.map Prod.fst).Nodup)
    (hnew : ∀ p ∈ pairs, p.1 ∉ m.map Prod.fst) : (insertAll pairs m).Perm (pairs ++ m) := by
  induction pairs generalizing m with
  | nil => exact List.Perm.refl _
  | cons p pairs ih =>
    obtain ⟨k, v⟩ := p
    obtain ⟨hk, hpairs⟩ := List.nodup_cons.mp hpairs
    have hinsert : (insert k v m).Perm ((k, v) :: m) := insert_perm (hnew _ List.mem_cons_self)
    have hrest : ∀ q ∈ pairs, q.1 ∉ (insert k v m).map Prod.fst := by
      intro q hq hmem
      rcases List.mem_cons.mp ((hinsert.map Prod.fst).mem_iff.mp hmem) with heq | hmem
      · exact hk (heq ▸ List.mem_map_of_mem hq)
      · exact hnew q (List.mem_cons_of_mem _ hq) hmem
    exact (ih hpairs hrest).trans ((hinsert.append_left pairs).trans List.perm_middle)

/-! ## 4. Keeping -/

theorem keep_cons (test : String → Bool) (key : String) (value : α) (m : Keyed α) :
    keep test ((key, value) :: m) =
      if test key then (key, value) :: keep test m else keep test m :=
  List.filter_cons

/-- **A key that is kept** finds what it found before, and any other key nothing. -/
theorem find?_keep (test : String → Bool) (m : Keyed α) :
    find? key (keep test m) = if test key then find? key m else none := by
  induction m with
  | nil => simp [keep, find?]
  | cons p m ih =>
    obtain ⟨k, v⟩ := p
    rw [keep_cons]
    by_cases hk : key = k
    · subst hk
      cases htest : test key with
      | true => simp [find?]
      | false => simpa [htest] using ih
    · cases htest : test k with
      | true => simpa [find?, hk] using ih
      | false => simpa [find?, hk] using ih

/-- A pair that is not kept may be inserted or not. -/
theorem keep_insert_of_not {test : String → Bool} (hkey : test key = false) (m : Keyed α) :
    keep test (insert key value m) = keep test m := by
  induction m with
  | nil => simp [insert, keep, hkey]
  | cons p m ih =>
    obtain ⟨k, v⟩ := p
    rw [insert]
    split
    · simp [keep, hkey]
    · split
      · rename_i heq
        subst heq
        simp [keep, hkey]
      · rw [keep_cons, keep_cons, ih]

/-- Pairs that are not kept may be inserted or not. -/
theorem keep_insertAll_of_not {test : String → Bool} {pairs : List (String × α)}
    (h : ∀ p ∈ pairs, test p.1 = false) (m : Keyed α) : keep test (insertAll pairs m) = keep test m := by
  induction pairs generalizing m with
  | nil => rfl
  | cons p pairs ih =>
    obtain ⟨k, v⟩ := p
    obtain ⟨hk, hpairs⟩ := List.forall_mem_cons.mp h
    rw [insertAll_cons, ih hpairs, keep_insert_of_not hk]

/-- **Keeping what was inserted is inserting what is kept**, into a sorted list. -/
theorem keep_insert {test : String → Bool} (hkey : test key = true) (h : Sorted m) :
    keep test (insert key value m) = insert key value (keep test m) := by
  induction m with
  | nil => simp [insert, keep, hkey]
  | cons p m ih =>
    obtain ⟨k, v⟩ := p
    obtain ⟨hk, hm⟩ := List.pairwise_cons.mp h
    by_cases hlt : key < k
    · have hfirst : ∀ q ∈ (k, v) :: m, key < q.1 := fun q hq => by
        rcases List.mem_cons.mp hq with rfl | hq
        · exact hlt
        · exact lt_trans hlt (hk q hq)
      have hkeep : ∀ q ∈ keep test ((k, v) :: m), key < q.1 := fun q hq =>
        hfirst q (List.mem_filter.mp hq).1
      rw [insert_before hfirst, insert_before hkeep, keep_cons, if_pos hkey]
    · by_cases heq : key = k
      · subst heq
        simp [insert, keep, hkey]
      · rw [insert, if_neg hlt, if_neg heq]
        rw [keep_cons, keep_cons, ih hm]
        split
        · rw [insert, if_neg hlt, if_neg heq]
        · rfl

/-- **What is kept of inserted pairs** is what is kept of the pairs, inserted. -/
theorem keep_insertAll (test : String → Bool) (pairs : List (String × α)) (h : Sorted m) :
    keep test (insertAll pairs m) = insertAll (keep test pairs) (keep test m) := by
  induction pairs generalizing m with
  | nil => rfl
  | cons p pairs ih =>
    obtain ⟨k, v⟩ := p
    rw [insertAll_cons, ih (h.insert k v)]
    cases htest : test k with
    | true =>
      rw [keep_cons, if_pos htest, keep_insert htest h]
      rfl
    | false => rw [keep_cons, htest, if_neg Bool.false_ne_true, keep_insert_of_not htest]

end Shortlist.Keyed
