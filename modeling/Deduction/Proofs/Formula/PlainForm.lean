import Deduction.Formula.Compact
import Deduction.Proofs.Text.Rewriting

/-!
The plain form of a text, and its compact form.

Respelling is one pass through the table of spellings, and after it no spelling is left, so another
pass changes nothing. The compact form is the plain form without blanks, and there a spelling may
come about anew, where nothing but blanks stood between its characters. Then the compact form has a
compact form of its own, and that one is final: the blanks that respelling brings in stand beside
the letter of a disjunction, which no spelling contains.
-/

namespace Deduction.Formula

open Text

theorem spellings_ne_nil : ∀ entry ∈ spellings, entry.1 ≠ [] := by
  decide

/-- No spelling shares a character with what is put in place of another. -/
theorem isApart_spellings : ∀ entry ∈ spellings, ∀ other ∈ spellings, IsApart other.1 entry.2 := by
  decide +kernel

theorem not_infix_respell {entry : List Char × List Char} (hentry : entry ∈ spellings)
    (text : List Char) : ¬ entry.1 <:+: respell text :=
  not_infix_replaceEach spellings_ne_nil isApart_spellings hentry text

theorem respell_eq_self_iff {text : List Char} :
    respell text = text ↔ ∀ entry ∈ spellings, ¬ entry.1 <:+: text := by
  constructor
  · intro hfixed entry hentry
    rw [← hfixed]
    exact not_infix_respell hentry text
  · exact replaceEach_eq_self spellings_ne_nil

/-- Respelling replaces occurrences of the spellings until none is left, so it changes exactly the
texts with a spelling in them, and it changes nothing the second time. -/
theorem respell_isPlainForm (text : List Char) :
    (∀ entry ∈ spellings, ¬ entry.1 <:+: respell text) ∧
      respell (respell text) = respell text ∧
      (respell text = text ↔ ∀ entry ∈ spellings, ¬ entry.1 <:+: text) ∧
      Relation.ReflTransGen (Rewrites spellings) text (respell text) := by
  have hplain : ∀ entry ∈ spellings, ¬ entry.1 <:+: respell text :=
    fun entry hentry => not_infix_respell hentry text
  exact ⟨hplain, respell_eq_self_iff.mpr hplain, respell_eq_self_iff,
    rewrites_replaceEach spellings_ne_nil (List.Subset.refl spellings) text⟩

example : respell "A /\\/ B ||| <=>>".toList = "A ^/ B  v | <->>".toList := by decide +kernel

section Blanks

/-- Every blank of the text stands beside the letter of a disjunction. -/
def BlanksBesideLetter (text : List Char) : Prop :=
  ∀ before c after, text = before ++ c :: after → isBlank c = true →
    before.getLast? = some 'v' ∨ after.head? = some 'v'

theorem blanksBesideLetter_of_solid {text : List Char} (hsolid : ∀ c ∈ text, isBlank c = false) :
    BlanksBesideLetter text := by
  rintro before c after rfl hblank
  rw [hsolid c (by simp)] at hblank
  contradiction

/-- The spelling is without the letter, and its replacement has no blank but those around it. -/
def PadsLetter (entry : List Char × List Char) : Prop :=
  entry.1 ≠ [] ∧ 'v' ∉ entry.1 ∧
    (entry.2 = [' ', 'v', ' '] ∨ (entry.2.all fun c => !isBlank c) = true)

instance (entry : List Char × List Char) : Decidable (PadsLetter entry) :=
  inferInstanceAs (Decidable (_ ∧ _))

theorem padsLetter_of_mem_spellings : ∀ entry ∈ spellings, PadsLetter entry := by
  decide

theorem BlanksBesideLetter.replaceAll {entry : List Char × List Char} (hpads : PadsLetter entry)
    {text : List Char} (hbeside : BlanksBesideLetter text) :
    BlanksBesideLetter (replaceAll entry.1 entry.2 text) := by
  obtain ⟨hsome, hletter, hpiece⟩ := hpads
  intro before c after heq hblank
  by_cases hlies : LiesOver entry.2 before c after
  · -- The blank is one of the replacement.
    obtain ⟨first, second, hsplit, hbefore, hafter⟩ := hlies
    rcases hpiece with hpiece | hsolid
    · rw [hpiece] at hsplit
      rcases first with _ | ⟨x, _ | ⟨y, _ | ⟨z, first⟩⟩⟩
      · obtain ⟨-, rfl⟩ := List.cons.inj hsplit
        obtain ⟨rest, rfl⟩ := hafter
        exact Or.inr rfl
      · simp only [List.cons_append, List.nil_append, List.cons.injEq] at hsplit
        obtain ⟨-, rfl, -⟩ := hsplit
        exact absurd hblank (by decide)
      · simp only [List.cons_append, List.nil_append, List.cons.injEq] at hsplit
        obtain ⟨-, rfl, -⟩ := hsplit
        obtain ⟨start, rfl⟩ := hbefore
        exact Or.inl (by simp)
      · simp at hsplit
    · have hc : c ∈ entry.2 := by simp [hsplit]
      have hfails := List.all_eq_true.mp hsolid c hc
      rw [hblank] at hfails
      contradiction
  · obtain ⟨source, rest, rfl, rfl, rfl⟩ := exists_of_replaceAll_eq hsome hlies heq
    rcases hbeside source c rest rfl hblank with hlast | hhead
    · obtain ⟨start, rfl⟩ := List.getLast?_eq_some_iff.mp hlast
      rw [replaceAll_concat hsome fun hends => hletter (List.mem_of_getLast? hends)]
      exact Or.inl List.getLast?_concat
    · obtain ⟨others, rfl⟩ := List.head?_eq_some_iff.mp hhead
      rw [replaceAll_cons_of_head? hsome fun hbegins => hletter (List.mem_of_head? hbegins)]
      exact Or.inr rfl

theorem BlanksBesideLetter.replaceEach {table : List (List Char × List Char)}
    (hpads : ∀ entry ∈ table, PadsLetter entry) {text : List Char}
    (hbeside : BlanksBesideLetter text) : BlanksBesideLetter (replaceEach table text) := by
  induction table generalizing text with
  | nil => exact hbeside
  | cons entry table ih =>
      rw [List.forall_mem_cons] at hpads
      exact ih hpads.2 (hbeside.replaceAll hpads.1)

theorem removeBlanks_solid {c : Char} (hc : isBlank c = false) (rest : List Char) :
    removeBlanks (c :: rest) = c :: removeBlanks rest := by
  simp [removeBlanks, hc]

theorem removeBlanks_blank {c : Char} (hc : isBlank c = true) (rest : List Char) :
    removeBlanks (c :: rest) = removeBlanks rest := by
  simp [removeBlanks, hc]

theorem BlanksBesideLetter.prefix_of_removeBlanks {pattern before text : List Char}
    (hbeside : BlanksBesideLetter (before ++ text)) (hletter : 'v' ∉ pattern)
    (hsolid : ∀ c ∈ text.head?, isBlank c = false)
    (hbegins : pattern <+: removeBlanks text) : pattern <+: text := by
  induction pattern generalizing before text with
  | nil => exact List.nil_prefix
  | cons c pattern ih =>
      rw [List.mem_cons, not_or] at hletter
      cases text with
      | nil => exact hbegins
      | cons d rest =>
          rw [removeBlanks_solid (hsolid d rfl), List.cons_prefix_cons] at hbegins
          obtain ⟨rfl, hrest⟩ := hbegins
          rw [List.cons_prefix_cons]
          refine ⟨rfl, ?_⟩
          cases pattern with
          | nil => exact List.nil_prefix
          | cons e pattern =>
              rw [← List.singleton_append, ← List.append_assoc] at hbeside
              refine ih hbeside hletter.2 ?_ hrest
              -- A blank here stands beside the letter, but the pattern goes on with another one.
              rintro f hf
              obtain ⟨others, rfl⟩ := List.head?_eq_some_iff.mp hf
              rw [Bool.eq_false_iff]
              intro hblank
              rcases hbeside _ f others rfl hblank with hlast | hhead
              · rw [List.getLast?_concat] at hlast
                exact hletter.1 (Option.some.inj hlast).symm
              · obtain ⟨more, rfl⟩ := List.head?_eq_some_iff.mp hhead
                rw [removeBlanks_blank hblank, removeBlanks_solid (by decide),
                  List.cons_prefix_cons] at hrest
                exact hletter.2 (by simp [hrest.1])

theorem exists_solid_end (text : List Char) :
    ∃ blanks rest, text = blanks ++ rest ∧ removeBlanks rest = removeBlanks text ∧
      ∀ c ∈ rest.head?, isBlank c = false := by
  induction text with
  | nil => exact ⟨[], [], rfl, rfl, by simp⟩
  | cons c text ih =>
      cases hc : isBlank c with
      | true =>
          obtain ⟨blanks, rest, rfl, hsame, hhead⟩ := ih
          exact ⟨c :: blanks, rest, rfl, by rw [removeBlanks_blank hc, hsame], hhead⟩
      | false => exact ⟨[], c :: text, rfl, rfl, by simpa using hc⟩

theorem BlanksBesideLetter.infix_of_removeBlanks {pattern text : List Char}
    (hbeside : BlanksBesideLetter text) (hletter : 'v' ∉ pattern)
    (hoccurs : pattern <:+: removeBlanks text) : pattern <:+: text := by
  obtain ⟨before, after, heq⟩ := hoccurs
  rw [List.append_assoc] at heq
  obtain ⟨first, second, rfl, -, hsecond⟩ := List.filter_eq_append_iff.mp heq.symm
  obtain ⟨blanks, rest, rfl, hsame, hhead⟩ := exists_solid_end second
  have hbegins : pattern <+: removeBlanks rest := by
    rw [hsame]
    exact ⟨after, hsecond.symm⟩
  rw [← List.append_assoc] at hbeside ⊢
  exact List.infix_append_of_infix_right
    (hbeside.prefix_of_removeBlanks hletter hhead hbegins).isInfix

end Blanks

section Compact

variable {text : List Char}

theorem isBlank_of_mem_compact : ∀ c ∈ compact text, isBlank c = false :=
  fun _ => isBlank_of_mem_removeBlanks

theorem not_infix_compact (hsolid : ∀ c ∈ text, isBlank c = false)
    {entry : List Char × List Char} (hentry : entry ∈ spellings) :
    ¬ entry.1 <:+: compact text := by
  have hbeside : BlanksBesideLetter (respell text) :=
    (blanksBesideLetter_of_solid hsolid).replaceEach padsLetter_of_mem_spellings
  intro hoccurs
  exact not_infix_respell hentry text
    (hbeside.infix_of_removeBlanks (padsLetter_of_mem_spellings entry hentry).2.1 hoccurs)

theorem compact_eq_self_iff (hsolid : ∀ c ∈ text, isBlank c = false) :
    compact text = text ↔ ∀ entry ∈ spellings, ¬ entry.1 <:+: text := by
  constructor
  · intro hfixed entry hentry
    rw [← hfixed]
    exact not_infix_compact hsolid hentry
  · intro hnone
    rw [compact, respell_eq_self_iff.mpr hnone]
    exact List.filter_eq_self.mpr fun c hc => by rw [hsolid c hc]; rfl

theorem infix_removeBlanks_iff {pattern : List Char} :
    pattern <:+: removeBlanks text ↔ ∃ piece, piece <:+: text ∧ removeBlanks piece = pattern := by
  constructor
  · rintro ⟨before, after, heq⟩
    rw [List.append_assoc] at heq
    obtain ⟨first, rest, rfl, -, hrest⟩ := List.filter_eq_append_iff.mp heq.symm
    obtain ⟨piece, last, rfl, hpiece, -⟩ := List.filter_eq_append_iff.mp hrest
    exact ⟨piece, ⟨first, last, List.append_assoc _ _ _⟩, hpiece⟩
  · rintro ⟨piece, hinside, rfl⟩
    exact hinside.filter _

/-- A piece of the text is a spelling but for blanks between its characters. -/
def HasBrokenSpelling (text : List Char) : Prop :=
  ∃ entry ∈ spellings, ∃ piece, piece <:+: text ∧ removeBlanks piece = entry.1

/-- A compact form is its own compact form unless a spelling was broken by blanks, and the compact
form of a compact form always is. -/
theorem compact_compact_eq_iff (text : List Char) :
    (compact (compact text) = compact text ↔ ¬ HasBrokenSpelling (respell text)) ∧
      compact (compact (compact text)) = compact (compact text) := by
  constructor
  · rw [compact_eq_self_iff isBlank_of_mem_compact, HasBrokenSpelling]
    simp only [not_exists, not_and, compact, infix_removeBlanks_iff]
  · rw [compact_eq_self_iff isBlank_of_mem_compact]
    exact fun entry hentry => not_infix_compact isBlank_of_mem_compact hentry

/-- Two bars apart are no disjunction, and they are one after the blank is removed. -/
theorem compact_of_bars_apart :
    ¬ ∀ text, compact (compact text) = compact text := by
  intro hall
  have hbars : compact (compact "P | | Q".toList) ≠ compact "P | | Q".toList := by decide +kernel
  exact hbars (hall _)

end Compact

end Deduction.Formula
