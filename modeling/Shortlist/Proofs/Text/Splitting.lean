import Mathlib.Data.List.DropRight
import Shortlist.Proofs.Record.Cleaning
import Shortlist.Text.Search

/-!
# Splitting and trimming

Splitting at a separator is what the library calls `List.splitOn`, so that the parts of a text that was
put together with separators are found again.  Trimming comes in twice when a line is read, once for the
line and once for each of its parts; the first time makes no difference to what the second one leaves,
as only the outer ends of the first and the last part are trimmed there.
-/

namespace Shortlist.Text

/-! ## 1. Splitting -/

/-- The parts between the separators are those of the library. -/
theorem splitAt_eq_splitOn (separator : Char) :
    ∀ cs : List Char, splitAt separator cs = cs.splitOn separator
  | [] => (List.splitOn_nil separator).symm
  | c :: cs => by
    rw [splitAt, splitAt_eq_splitOn separator cs, List.splitOn_cons_eq_if_modifyHead]
    cases hparts : cs.splitOn separator with
    | nil => exact absurd hparts (List.splitOn_ne_nil _ _)
    | cons part parts => rfl

/-- No part contains the separator. -/
theorem notMem_of_mem_splitOn {separator : Char} :
    ∀ {cs part : List Char}, part ∈ cs.splitOn separator → separator ∉ part
  | [], part, h => by
    rw [List.splitOn_nil, List.mem_singleton] at h
    exact h ▸ List.not_mem_nil
  | c :: cs, part, h => by
    rw [List.splitOn_cons_eq_if_modifyHead] at h
    cases hparts : cs.splitOn separator with
    | nil => exact absurd hparts (List.splitOn_ne_nil _ _)
    | cons first rest =>
      have ih : ∀ q ∈ first :: rest, separator ∉ q := fun q hq =>
        notMem_of_mem_splitOn (hparts ▸ hq)
      rw [hparts] at h
      split at h
      · rcases List.mem_cons.mp h with rfl | h
        · exact List.not_mem_nil
        · exact ih part h
      · rename_i hc
        rcases List.mem_cons.mp h with rfl | h
        · intro hmem
          rcases List.mem_cons.mp hmem with rfl | hmem
          · exact hc (beq_self_eq_true _)
          · exact ih first List.mem_cons_self hmem
        · exact ih part (List.mem_cons_of_mem _ h)

/-- **The lines of two texts** with a line feed in between are those of both. -/
theorem lines_append (a b : List Char) : lines (a ++ '\n' :: b) = lines a ++ lines b := by
  simp only [lines, splitAt_eq_splitOn]
  exact List.splitOn_append_cons_self a b

/-- A text without line feeds is one line. -/
theorem lines_eq_singleton {cs : List Char} (h : '\n' ∉ cs) : lines cs = [cs] := by
  rw [lines, splitAt_eq_splitOn, List.splitOn_eq_singleton h]

/-! ## 2. Trimming -/

/-- There are blanks only. -/
def Blanks (cs : List Char) : Prop := ∀ c ∈ cs, isBlank c = true

instance (cs : List Char) : Decidable (Blanks cs) :=
  List.decidableBAll (fun c => isBlank c = true) cs

variable {front behind : List Char}

/-- **Blanks at the ends are trimmed**, however many there are. -/
theorem trimChars_append (hfront : Blanks front) (hbehind : Blanks behind) (cs : List Char) :
    trimChars (front ++ cs ++ behind) = trimChars cs := by
  have hright : ∀ more, trimRight (more ++ behind) = trimRight more := fun more => by
    rw [trimRight, List.reverse_append,
      List.dropWhile_append_of_pos fun c hc => hbehind c (List.mem_reverse.mp hc), trimRight]
  rw [trimChars, List.append_assoc, List.dropWhile_append_of_pos hfront, List.dropWhile_append]
  split
  · rename_i hnone
    have hdrop : cs.dropWhile isBlank = [] := List.isEmpty_iff.mp hnone
    have hbehind' : behind.dropWhile isBlank = [] := List.dropWhile_eq_nil_iff.mpr hbehind
    rw [trimChars, hdrop, hbehind']
  · rw [hright, trimChars]

theorem trimChars_of_blanks {cs : List Char} (h : Blanks cs) : trimChars cs = [] := by
  have htrim := trimChars_append h (List.forall_mem_nil _) []
  rwa [List.append_nil, List.append_nil] at htrim

/-- Trimming takes blanks off both ends. -/
theorem exists_eq_append_trimChars (cs : List Char) :
    ∃ front behind, Blanks front ∧ Blanks behind ∧ cs = front ++ trimChars cs ++ behind := by
  refine ⟨cs.takeWhile isBlank, (cs.dropWhile isBlank).rtakeWhile isBlank, fun c hc => ?_,
    fun c hc => ?_, ?_⟩
  · exact List.mem_takeWhile_imp hc
  · exact List.mem_rtakeWhile_imp hc
  · rw [trimChars, trimRight_eq, List.append_assoc, List.rdropWhile_append_rtakeWhile,
      List.takeWhile_append_dropWhile]

/-- What is left after trimming begins with the first character that is not a blank. -/
theorem head?_trimChars_append (hfront : Blanks front) {c : Char} (hc : isBlank c = false)
    (rest : List Char) : (trimChars (front ++ c :: rest)).head? = some c := by
  have hdrop : (front ++ c :: rest).dropWhile isBlank = c :: rest := by
    rw [List.dropWhile_append_of_pos hfront, List.dropWhile_cons, hc]
    rfl
  have hne : (c :: rest).rdropWhile isBlank ≠ [] := fun hnil => by
    have hall := List.rdropWhile_eq_nil_iff.mp hnil c List.mem_cons_self
    rw [hc] at hall
    cases hall
  have hprefix : (c :: rest).rdropWhile isBlank <+: c :: rest := List.rdropWhile_prefix _ _
  rw [trimChars, hdrop, trimRight_eq]
  obtain ⟨d, more, hmore⟩ := List.exists_cons_of_ne_nil hne
  rw [hmore] at hprefix ⊢
  exact congrArg some (List.cons_prefix_cons.mp hprefix).1

/-! ## 3. Parts of a trimmed text -/

/-- Blanks in front of a text stand in front of its first part. -/
theorem append_intercalate (separator : List Char) (front part : List Char)
    (parts : List (List Char)) :
    front ++ separator.intercalate (part :: parts) =
      separator.intercalate ((front ++ part) :: parts) := by
  cases parts with
  | nil => simp
  | cons next parts => simp [List.intercalate_cons_cons]

/-- Blanks behind a text stand behind its last part. -/
theorem intercalate_append (separator : List Char) (behind part : List Char) :
    ∀ parts : List (List Char), separator.intercalate (parts ++ [part]) ++ behind =
      separator.intercalate (parts ++ [part ++ behind])
  | [] => by simp
  | first :: parts => by
    rw [List.cons_append, List.intercalate_cons_of_ne_nil (List.concat_ne_nil part parts),
      List.append_assoc, intercalate_append separator behind part parts, List.cons_append,
      List.intercalate_cons_of_ne_nil (List.concat_ne_nil (part ++ behind) parts)]

/-- What stands in a text with separators stands in them or in one of the parts. -/
theorem mem_intercalate {separator : List Char} {c : Char} :
    ∀ {parts : List (List Char)}, c ∈ separator.intercalate parts →
      c ∈ separator ∨ ∃ part ∈ parts, c ∈ part
  | [], h => absurd h List.not_mem_nil
  | [part], h => by
    rw [List.intercalate_singleton] at h
    exact Or.inr ⟨part, List.mem_cons_self, h⟩
  | part :: next :: parts, h => by
    rw [List.intercalate_cons_cons, List.append_assoc, List.mem_append, List.mem_append] at h
    rcases h with h | h | h
    · exact Or.inr ⟨part, List.mem_cons_self, h⟩
    · exact Or.inl h
    · exact (mem_intercalate h).imp_right fun ⟨q, hq, hc⟩ => ⟨q, List.mem_cons_of_mem _ hq, hc⟩

variable {separator : Char} (hsep : isBlank separator = false)

include hsep

theorem Blanks.notMem {cs : List Char} (h : Blanks cs) : separator ∉ cs := fun hmem => by
  have hblank := h separator hmem
  rw [hsep] at hblank
  cases hblank

/-- Blanks in front of a text make no difference to its parts once these are trimmed. -/
theorem map_trimChars_splitOn_front (hfront : Blanks front) (cs : List Char) :
    ((front ++ cs).splitOn separator).map trimChars = (cs.splitOn separator).map trimChars := by
  obtain ⟨part, parts, hparts⟩ := List.exists_cons_of_ne_nil (List.splitOn_ne_nil separator cs)
  have hfree : ∀ q ∈ part :: parts, separator ∉ q := fun q hq => notMem_of_mem_splitOn (hparts ▸ hq)
  obtain ⟨hpart, hrest⟩ := List.forall_mem_cons.mp hfree
  have hfirst : separator ∉ front ++ part := by simp [hfront.notMem hsep, hpart]
  have hjoined : [separator].intercalate (cs.splitOn separator) = cs := List.intercalate_splitOn _
  have htrim := trimChars_append hfront (List.forall_mem_nil _) part
  rw [List.append_nil] at htrim
  rw [← hjoined, hparts, append_intercalate,
    List.splitOn_intercalate separator (List.forall_mem_cons.mpr ⟨hfirst, hrest⟩)
      (List.cons_ne_nil _ _),
    List.splitOn_intercalate separator hfree (List.cons_ne_nil _ _), List.map_cons, htrim,
    List.map_cons]

/-- Blanks behind a text make no difference to its parts once these are trimmed. -/
theorem map_trimChars_splitOn_behind (hbehind : Blanks behind) (cs : List Char) :
    ((cs ++ behind).splitOn separator).map trimChars = (cs.splitOn separator).map trimChars := by
  obtain ⟨parts, part, hparts⟩ := (List.eq_nil_or_concat (cs.splitOn separator)).resolve_left
    (List.splitOn_ne_nil separator cs)
  rw [List.concat_eq_append] at hparts
  have hfree : ∀ q ∈ parts ++ [part], separator ∉ q := fun q hq => notMem_of_mem_splitOn (hparts ▸ hq)
  obtain ⟨hrest, hpart⟩ := List.forall_mem_append.mp hfree
  have hlast : separator ∉ part ++ behind := by
    simp [hbehind.notMem hsep, List.forall_mem_singleton.mp hpart]
  have hjoined : [separator].intercalate (cs.splitOn separator) = cs := List.intercalate_splitOn _
  have htrim := trimChars_append (List.forall_mem_nil _) hbehind part
  rw [List.nil_append] at htrim
  rw [← hjoined, hparts, intercalate_append,
    List.splitOn_intercalate separator
      (List.forall_mem_append.mpr ⟨hrest, List.forall_mem_singleton.mpr hlast⟩)
      (List.concat_ne_nil _ _),
    List.splitOn_intercalate separator hfree (List.concat_ne_nil _ _), List.map_append,
    List.map_append, List.map_singleton, htrim, List.map_singleton]

/-- **Trimming a text first** makes no difference to its trimmed parts. -/
theorem map_trimChars_splitOn_trimChars (cs : List Char) :
    ((trimChars cs).splitOn separator).map trimChars = (cs.splitOn separator).map trimChars := by
  obtain ⟨front, behind, hfront, hbehind, hcs⟩ := exists_eq_append_trimChars cs
  conv => rhs; rw [hcs]
  rw [map_trimChars_splitOn_behind hsep hbehind, map_trimChars_splitOn_front hsep hfront]

end Shortlist.Text
