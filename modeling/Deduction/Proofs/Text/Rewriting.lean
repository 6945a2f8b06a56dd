import Deduction.Proofs.Text.Replace
import Mathlib.Logic.Relation

namespace Deduction.Text

/-- One of the texts begins with the other. -/
def Agree (first second : List Char) : Prop :=
  first <+: second ∨ second <+: first

instance (first second : List Char) : Decidable (Agree first second) :=
  inferInstanceAs (Decidable (_ ∨ _))

/-- No occurrence of the pattern shares a character with the piece: none begins inside it, and none
is about to end where the piece begins. -/
def IsApart (pattern piece : List Char) : Prop :=
  (∀ n < piece.length, ¬ Agree pattern (piece.drop n)) ∧
    ∀ n < pattern.length, ¬ Agree (pattern.drop n) piece

instance (pattern piece : List Char) : Decidable (IsApart pattern piece) :=
  inferInstanceAs (Decidable (_ ∧ _))

theorem infix_of_infix_append {pattern piece rest : List Char}
    (hapart : ∀ n < piece.length, ¬ Agree pattern (piece.drop n))
    (hoccurs : pattern <:+: piece ++ rest) : pattern <:+: rest := by
  induction piece with
  | nil => exact hoccurs
  | cons c piece ih =>
      rw [List.cons_append, List.infix_cons_iff] at hoccurs
      rcases hoccurs with hbegins | hlater
      · have hagree : Agree pattern (c :: piece) :=
          List.prefix_or_prefix_of_prefix hbegins (List.prefix_append (c :: piece) rest)
        exact absurd hagree (hapart 0 (Nat.succ_pos _))
      · exact ih (fun n hn => hapart (n + 1) (Nat.succ_lt_succ hn)) hlater

section Occurrences

variable {pattern other replacement text : List Char}

theorem prefix_of_prefix_replaceAll (hsome : pattern ≠ [])
    (hapart : ∀ n < other.length, ¬ Agree (other.drop n) replacement)
    (hbegins : other <+: replaceAll pattern replacement text) : other <+: text := by
  induction text using occurrenceInduction hsome generalizing other with
  | nil => exact hbegins
  | occurrence rest _ =>
      cases other with
      | nil => exact List.nil_prefix
      | cons c other =>
          rw [replaceAll_pattern_append hsome] at hbegins
          have hagree : Agree (c :: other) replacement :=
            List.prefix_or_prefix_of_prefix hbegins (List.prefix_append replacement _)
          exact absurd hagree (hapart 0 (Nat.succ_pos _))
  | other c rest hnone ih =>
      rw [replaceAll_cons hnone, List.prefix_cons_iff] at hbegins
      rcases hbegins with rfl | ⟨tail, rfl, htail⟩
      · exact List.nil_prefix
      · rw [List.cons_prefix_cons]
        exact ⟨rfl, ih (fun n hn => hapart (n + 1) (Nat.succ_lt_succ hn)) htail⟩

theorem infix_of_infix_replaceAll (hsome : pattern ≠ []) (hapart : IsApart other replacement)
    (hoccurs : other <:+: replaceAll pattern replacement text) : other <:+: text := by
  induction text using occurrenceInduction hsome with
  | nil => exact hoccurs
  | occurrence rest ih =>
      rw [replaceAll_pattern_append hsome] at hoccurs
      exact List.infix_append_of_infix_right (ih (infix_of_infix_append hapart.1 hoccurs))
  | other c rest hnone ih =>
      rw [replaceAll_cons hnone, List.infix_cons_iff, ← replaceAll_cons hnone] at hoccurs
      rcases hoccurs with hbegins | hlater
      · exact (prefix_of_prefix_replaceAll hsome hapart.2 hbegins).isInfix
      · exact List.infix_cons (ih hlater)

/-- No occurrence of a pattern is left after its replacement. -/
theorem not_infix_replaceAll (hsome : pattern ≠ []) (hapart : IsApart pattern replacement) :
    ¬ pattern <:+: replaceAll pattern replacement text := by
  induction text using occurrenceInduction hsome with
  | nil => exact fun hoccurs => hsome (List.infix_nil.mp hoccurs)
  | occurrence rest ih =>
      rw [replaceAll_pattern_append hsome]
      exact fun hoccurs => ih (infix_of_infix_append hapart.1 hoccurs)
  | other c rest hnone ih =>
      rw [replaceAll_cons hnone, List.infix_cons_iff, ← replaceAll_cons hnone]
      rintro (hbegins | hlater)
      · have hbefore := prefix_of_prefix_replaceAll hsome hapart.2 hbegins
        rw [List.isPrefixOf_iff_prefix.mpr hbefore] at hnone
        contradiction
      · exact ih hlater

theorem replaceAll_eq_self (hsome : pattern ≠ []) (hnone : ¬ pattern <:+: text) :
    replaceAll pattern replacement text = text := by
  induction text using occurrenceInduction hsome with
  | nil => rfl
  | occurrence rest _ => exact absurd (List.prefix_append pattern rest).isInfix hnone
  | other c rest hbegins ih =>
      rw [replaceAll_cons hbegins, ih fun hlater => hnone (List.infix_cons hlater)]

end Occurrences

/-- One occurrence of a pattern of the table is replaced. -/
def Rewrites (table : List (List Char × List Char)) (text text' : List Char) : Prop :=
  ∃ entry ∈ table, ∃ before after,
    text = before ++ (entry.1 ++ after) ∧ text' = before ++ (entry.2 ++ after)

section Tables

variable {table : List (List Char × List Char)} {text text' : List Char}

theorem Rewrites.append_left (hrewrites : Rewrites table text text') (start : List Char) :
    Rewrites table (start ++ text) (start ++ text') := by
  obtain ⟨entry, hentry, before, after, rfl, rfl⟩ := hrewrites
  exact ⟨entry, hentry, start ++ before, after, by rw [List.append_assoc],
    by rw [List.append_assoc]⟩

theorem rewrites_append_left (hrewrites : Relation.ReflTransGen (Rewrites table) text text')
    (start : List Char) :
    Relation.ReflTransGen (Rewrites table) (start ++ text) (start ++ text') := by
  induction hrewrites with
  | refl => exact .refl
  | tail _ hstep ih => exact ih.tail (hstep.append_left start)

theorem rewrites_replaceAll {entry : List Char × List Char} (hentry : entry ∈ table)
    (hsome : entry.1 ≠ []) (text : List Char) :
    Relation.ReflTransGen (Rewrites table) text (replaceAll entry.1 entry.2 text) := by
  induction text using occurrenceInduction hsome with
  | nil => exact .refl
  | occurrence rest ih =>
      rw [replaceAll_pattern_append hsome]
      exact .head ⟨entry, hentry, [], rest, rfl, rfl⟩ (rewrites_append_left ih entry.2)
  | other c rest hnone ih =>
      rw [replaceAll_cons hnone]
      exact rewrites_append_left ih [c]

/-- A pass through the table does nothing but replace occurrences. -/
theorem rewrites_replaceEach (hsome : ∀ entry ∈ table, entry.1 ≠ [])
    {part : List (List Char × List Char)} (hpart : part ⊆ table) (text : List Char) :
    Relation.ReflTransGen (Rewrites table) text (replaceEach part text) := by
  induction part generalizing text with
  | nil => exact .refl
  | cons entry part ih =>
      rw [List.cons_subset] at hpart
      rw [replaceEach_entry]
      exact (rewrites_replaceAll hpart.1 (hsome entry hpart.1) text).trans (ih hpart.2 _)

theorem infix_of_infix_replaceEach {other : List Char} (hsome : ∀ entry ∈ table, entry.1 ≠ [])
    (hapart : ∀ entry ∈ table, IsApart other entry.2)
    (hoccurs : other <:+: replaceEach table text) : other <:+: text := by
  induction table generalizing text with
  | nil => exact hoccurs
  | cons entry table ih =>
      rw [replaceEach_entry] at hoccurs
      rw [List.forall_mem_cons] at hsome hapart
      exact infix_of_infix_replaceAll hsome.1 hapart.1 (ih hsome.2 hapart.2 hoccurs)

/-- A pass through a table leaves none of its patterns, if none can share a character with what is
put in place of them. -/
theorem not_infix_replaceEach (hsome : ∀ entry ∈ table, entry.1 ≠ [])
    (hapart : ∀ entry ∈ table, ∀ other ∈ table, IsApart other.1 entry.2)
    {entry : List Char × List Char} (hentry : entry ∈ table) (text : List Char) :
    ¬ entry.1 <:+: replaceEach table text := by
  obtain ⟨earlier, later, rfl⟩ := List.append_of_mem hentry
  have hlater : ∀ next ∈ later, next ∈ earlier ++ entry :: later := fun next hnext =>
    List.mem_append_right earlier (List.mem_cons_of_mem entry hnext)
  rw [replaceEach_append, replaceEach_entry]
  intro hoccurs
  exact not_infix_replaceAll (hsome entry hentry) (hapart entry hentry entry hentry)
    (infix_of_infix_replaceEach (fun next hnext => hsome next (hlater next hnext))
      (fun next hnext => hapart next (hlater next hnext) entry hentry) hoccurs)

theorem replaceEach_eq_self (hsome : ∀ entry ∈ table, entry.1 ≠ [])
    (hnone : ∀ entry ∈ table, ¬ entry.1 <:+: text) : replaceEach table text = text := by
  induction table with
  | nil => rfl
  | cons entry table ih =>
      rw [List.forall_mem_cons] at hsome hnone
      rw [replaceEach_entry, replaceAll_eq_self hsome.1 hnone.1, ih hsome.2 hnone.2]

end Tables

end Deduction.Text
