import Deduction.Proofs.Text.Word

/-!
Whole words by the places where they stand.

A place divides a text into what comes before the word and what comes after it, neither of which
touches the word with a word character. A replacement moves places and neither makes nor drops one:
each place of the new text comes from a place of the old one, with both sides replaced apart. A
second replacement therefore sees the new word exactly where the first has put it, provided that
the text lacked it before.
-/

namespace Deduction.Text

/-- `word` stands in `text` as a whole word, with `before` and `after` on its two sides. -/
structure IsPlace (word text before after : List Char) : Prop where
  text_eq : text = before ++ word ++ after
  isBoundary_before : isBoundary before.getLast? = true
  isBoundary_after : isBoundary after.head? = true

/-- `word` stands in `text` as a whole word at some place. -/
def Occurs (word text : List Char) : Prop :=
  ∃ before after, IsPlace word text before after

section Search

variable {word : List Char}

theorem startsWithWord_iff {previous : Option Char} {text : List Char} :
    startsWithWord word previous text = true ↔
      isBoundary previous = true ∧
        ∃ after, text = word ++ after ∧ isBoundary after.head? = true := by
  simp only [startsWithWord, Bool.and_eq_true, List.isPrefixOf_iff_prefix, and_assoc,
    and_congr_right_iff]
  intro _
  constructor
  · rintro ⟨⟨after, rfl⟩, hafter⟩
    exact ⟨after, rfl, by simpa using hafter⟩
  · rintro ⟨after, rfl, hafter⟩
    exact ⟨List.prefix_append word after, by simpa using hafter⟩

theorem hasWordFrom_iff {previous : Option Char} {text : List Char} :
    hasWordFrom word previous text = true ↔
      ∃ before after, text = before ++ word ++ after ∧
        isBoundary (before.getLast?.or previous) = true ∧ isBoundary after.head? = true := by
  induction text generalizing previous with
  | nil =>
      rw [hasWordFrom, startsWithWord_iff]
      constructor
      · rintro ⟨hprevious, after, htext, hafter⟩
        exact ⟨[], after, htext, hprevious, hafter⟩
      · rintro ⟨before, after, htext, hbefore, hafter⟩
        obtain ⟨rfl, rfl, rfl⟩ : before = [] ∧ word = [] ∧ after = [] := by
          simpa using htext.symm
        exact ⟨hbefore, [], rfl, hafter⟩
  | cons c rest ih =>
      have hlast (before : List Char) :
          (c :: before).getLast?.or previous = before.getLast?.or (some c) := by
        cases before with
        | nil => rfl
        | cons d before => simp [List.getLast?_cons]
      rw [hasWordFrom, Bool.or_eq_true, startsWithWord_iff, ih]
      constructor
      · rintro (⟨hprevious, after, htext, hafter⟩ | ⟨before, after, rfl, hbefore, hafter⟩)
        · exact ⟨[], after, htext, hprevious, hafter⟩
        · exact ⟨c :: before, after, rfl, (hlast before).symm ▸ hbefore, hafter⟩
      · rintro ⟨_ | ⟨d, before⟩, after, htext, hbefore, hafter⟩
        · exact Or.inl ⟨hbefore, after, htext, hafter⟩
        · obtain ⟨rfl, rfl⟩ : c = d ∧ rest = before ++ word ++ after := by simpa using htext
          exact Or.inr ⟨before, after, rfl, hlast before ▸ hbefore, hafter⟩

theorem hasWord_iff_occurs {text : List Char} : hasWord word text = true ↔ Occurs word text := by
  rw [hasWord, hasWordFrom_iff]
  constructor
  · rintro ⟨before, after, htext, hbefore, hafter⟩
    exact ⟨before, after, htext, by simpa using hbefore, hafter⟩
  · rintro ⟨before, after, htext, hbefore, hafter⟩
    exact ⟨before, after, htext, by simpa using hbefore, hafter⟩

instance (word text : List Char) : Decidable (Occurs word text) :=
  decidable_of_iff (hasWord word text = true) hasWord_iff_occurs

end Search

section Runs

variable {word run rest before after : List Char}

theorem IsRun.isBoundary_getLast? (hrun : IsRun run) : isBoundary run.getLast? = false := by
  have hlast := hrun.isWordChar _ (List.getLast_mem hrun.ne_nil)
  simp [List.getLast?_eq_some_getLast hrun.ne_nil, isBoundary, hlast]

theorem not_isPlace_nil (hword : IsRun word) : ¬ IsPlace word [] before after := by
  rintro ⟨htext, -, -⟩
  have hnil : before = [] ∧ word = [] ∧ after = [] := by simpa using htext.symm
  exact hword.ne_nil hnil.2.1

theorem isPlace_other {c : Char} (hword : IsRun word) (hc : isWordChar c = false) :
    IsPlace word (c :: rest) before after ↔
      ∃ before', before = c :: before' ∧ IsPlace word rest before' after := by
  have hlast (before : List Char) :
      isBoundary (c :: before).getLast? = isBoundary before.getLast? := by
    cases before with
    | nil => simp [isBoundary, hc]
    | cons d before => rw [List.getLast?_cons_cons]
  constructor
  · rintro ⟨htext, hbefore, hafter⟩
    cases before with
    | nil =>
        -- A word at the head would begin with the character.
        have hstarts : startsWithWord word none (c :: rest) = false :=
          startsWithWord_other hword hc none
        rw [htext, Bool.eq_false_iff] at hstarts
        exact absurd (startsWithWord_iff.mpr ⟨rfl, after, rfl, hafter⟩) hstarts
    | cons d before =>
        obtain ⟨rfl, rfl⟩ : c = d ∧ rest = before ++ word ++ after := by simpa using htext
        exact ⟨before, rfl, rfl, hlast before ▸ hbefore, hafter⟩
  · rintro ⟨before, rfl, rfl, hbefore, hafter⟩
    exact ⟨rfl, (hlast before).symm ▸ hbefore, hafter⟩

theorem isPlace_run (hword : IsRun word) (hrun : IsRun run)
    (hrest : isBoundary rest.head? = true) :
    IsPlace word (run ++ rest) before after ↔
      (before = [] ∧ run = word ∧ after = rest) ∨
        ∃ before', before = run ++ before' ∧ IsPlace word rest before' after := by
  constructor
  · rintro ⟨htext, hbefore, hafter⟩
    rw [List.append_assoc] at htext
    rcases List.append_eq_append_iff.mp htext with ⟨more, rfl, hmore⟩ | ⟨more, rfl, hmore⟩
    · refine Or.inr ⟨more, rfl, by rw [hmore, List.append_assoc], ?_, hafter⟩
      cases hlast : more.getLast? with
      | none => rfl
      | some c => simpa [List.getLast?_append, hlast] using hbefore
    · -- The text before the word ends with a word character unless it is empty.
      by_cases hnil : before = []
      · subst hnil
        rw [List.nil_append] at hrun htext ⊢
        have hstarts : startsWithWord word none (more ++ rest) = true :=
          startsWithWord_iff.mpr ⟨rfl, after, htext, hafter⟩
        obtain rfl := ((startsWithWord_run hword hrun hrest none).mp hstarts).2
        exact Or.inl ⟨rfl, rfl, (List.append_cancel_left htext).symm⟩
      · have hrun' : IsRun before :=
          ⟨hnil, fun c hc => hrun.isWordChar c (List.mem_append_left more hc)⟩
        rw [hrun'.isBoundary_getLast?] at hbefore
        contradiction
  · rintro (⟨rfl, rfl, rfl⟩ | ⟨before, rfl, rfl, hbefore, hafter⟩)
    · exact ⟨rfl, rfl, hrest⟩
    · refine ⟨by simp only [List.append_assoc], ?_, hafter⟩
      cases before with
      | nil =>
          have hnone := isPrefixOf_of_boundary hword hrest
          rw [List.nil_append, Bool.eq_false_iff, Ne, List.isPrefixOf_iff_prefix] at hnone
          exact absurd (List.prefix_append word after) hnone
      | cons d before => simpa [List.getLast?_append, List.getLast?_cons] using hbefore

end Runs

section Replacement

variable {word term text before after : List Char}

theorem eq_nil_or_concat_of_boundary (hbefore : isBoundary before.getLast? = true) :
    before = [] ∨ ∃ init c, before = init ++ [c] ∧ isWordChar c = false := by
  cases hlast : before.getLast? with
  | none => exact Or.inl (List.getLast?_eq_none_iff.mp hlast)
  | some c =>
      obtain ⟨init, rfl⟩ := List.getLast?_eq_some_iff.mp hlast
      exact Or.inr ⟨init, c, rfl, by simpa [isBoundary] using hbefore⟩

theorem replaceWord_append_of_boundary (hword : IsRun word)
    (hbefore : isBoundary before.getLast? = true) (rest : List Char) :
    replaceWord (before ++ rest) word term =
      replaceWord before word term ++ replaceWord rest word term := by
  rcases eq_nil_or_concat_of_boundary hbefore with rfl | ⟨init, c, rfl, hc⟩
  · rw [replaceWord_nil hword, List.nil_append, List.nil_append]
  · rw [List.append_assoc, List.singleton_append, replaceWord_append_other hword hc,
      replaceWord_append_other hword hc, replaceWord_nil hword, List.append_assoc,
      List.singleton_append]

theorem isBoundary_getLast?_replaceWord (hword : IsRun word)
    (hbefore : isBoundary before.getLast? = true) :
    isBoundary (replaceWord before word term).getLast? = true := by
  rcases eq_nil_or_concat_of_boundary hbefore with rfl | ⟨init, c, rfl, hc⟩
  · rw [replaceWord_nil hword]
    exact hbefore
  · rw [replaceWord_append_other hword hc, replaceWord_nil hword, List.getLast?_concat]
    simp [isBoundary, hc]

theorem IsPlace.replaced {source : List Char} (hword : IsRun word) (hsource : IsRun source)
    (hplace : IsPlace source text before after) (term : List Char) :
    IsPlace (if source = word then term else source) (replaceWord text word term)
      (replaceWord before word term) (replaceWord after word term) := by
  obtain ⟨rfl, hbefore, hafter⟩ := hplace
  refine ⟨?_, isBoundary_getLast?_replaceWord hword hbefore,
    isBoundary_head?_replaceWord hword hafter⟩
  rw [List.append_assoc, replaceWord_append_of_boundary hword hbefore,
    replaceWord_run hword hsource hafter, List.append_assoc]

theorem isBoundary_head?_of_isPlace (htext : isBoundary text.head? = true)
    (hplace : IsPlace word text before after) : isBoundary before.head? = true := by
  obtain ⟨rfl, -, -⟩ := hplace
  cases before with
  | nil => rfl
  | cons c before => exact htext

/-- A place of the new text was the place of a word before, which the replacement has exchanged or
left alone. -/
theorem IsPlace.exists_source {target : List Char} (hword : IsRun word) (hterm : IsRun term)
    (htarget : IsRun target) (hplace : IsPlace target (replaceWord text word term) before after) :
    ∃ source before' after', IsRun source ∧ IsPlace source text before' after' ∧
      (if source = word then term else source) = target ∧
      replaceWord before' word term = before ∧ replaceWord after' word term = after := by
  induction text using runInduction generalizing before with
  | nil =>
      rw [replaceWord_nil hword] at hplace
      exact absurd hplace (not_isPlace_nil htarget)
  | other c rest hc ih =>
      rw [replaceWord_other hword hc, isPlace_other htarget hc] at hplace
      obtain ⟨before, rfl, hplace⟩ := hplace
      obtain ⟨source, before', after', hsource, hplace', hexchange, rfl, rfl⟩ := ih hplace
      exact ⟨source, c :: before', after', hsource,
        (isPlace_other hsource hc).mpr ⟨before', rfl, hplace'⟩, hexchange,
        replaceWord_other hword hc before', rfl⟩
  | run run rest hrun hrest ih =>
      have hpiece : IsRun (if run = word then term else run) := by
        split
        · exact hterm
        · exact hrun
      rw [replaceWord_run hword hrun hrest,
        isPlace_run htarget hpiece (isBoundary_head?_replaceWord hword hrest)] at hplace
      rcases hplace with ⟨rfl, hexchange, rfl⟩ | ⟨before, rfl, hplace⟩
      · exact ⟨run, [], rest, hrun, ⟨rfl, rfl, hrest⟩, hexchange, replaceWord_nil hword, rfl⟩
      · obtain ⟨source, before', after', hsource, hplace', hexchange, rfl, rfl⟩ := ih hplace
        refine ⟨source, run ++ before', after', hsource, ?_, hexchange, ?_, rfl⟩
        · exact (isPlace_run hsource hrun hrest).mpr (Or.inr ⟨before', rfl, hplace'⟩)
        · exact replaceWord_run hword hrun (isBoundary_head?_of_isPlace hrest hplace')

theorem not_occurs_replaceWord (hword : IsRun word) (hterm : IsRun term) (hne : term ≠ word)
    (text : List Char) : ¬ Occurs word (replaceWord text word term) := by
  rintro ⟨before, after, hplace⟩
  obtain ⟨source, -, -, -, -, hexchange, -, -⟩ := hplace.exists_source hword hterm hword
  split at hexchange
  · exact hne hexchange
  · rename_i hother
    exact hother hexchange

/-- The places of a word that the text lacked are those of the word it replaces. -/
theorem isPlace_replaceWord_of_fresh (hword : IsRun word) (hterm : IsRun term)
    (hfresh : ¬ Occurs term text) :
    IsPlace term (replaceWord text word term) before after ↔
      ∃ before' after', IsPlace word text before' after' ∧
        replaceWord before' word term = before ∧ replaceWord after' word term = after := by
  constructor
  · intro hplace
    obtain ⟨source, before', after', -, hplace', hexchange, hbefore, hafter⟩ :=
      hplace.exists_source hword hterm hterm
    split at hexchange
    · rename_i hsame
      exact ⟨before', after', hsame ▸ hplace', hbefore, hafter⟩
    · exact absurd ⟨before', after', hexchange ▸ hplace'⟩ hfresh
  · rintro ⟨before', after', hplace, rfl, rfl⟩
    have hreplaced := hplace.replaced hword hword term
    rwa [if_pos rfl] at hreplaced

/-- Replacing a word by one that the text lacks, and that one by a third, is replacing the word by
the third at once: the second pass finds its word where the first has put it and nowhere else. With
the word itself as the third the text comes back. Nothing is left of a word that another replaces,
whether the text had the other or not. -/
theorem replaceWord_through_fresh (hword : IsRun word) (hterm : IsRun term) (text : List Char) :
    (¬ Occurs term text →
      (∀ third, replaceWord (replaceWord text word term) term third =
        replaceWord text word third) ∧
      replaceWord (replaceWord text word term) term word = text ∧
      ∀ before after, IsPlace term (replaceWord text word term) before after ↔
        ∃ before' after', IsPlace word text before' after' ∧
          replaceWord before' word term = before ∧ replaceWord after' word term = after) ∧
    (term ≠ word → ¬ Occurs word (replaceWord text word term)) := by
  refine ⟨fun hfresh => ?_, fun hne => not_occurs_replaceWord hword hterm hne text⟩
  have hlacks : hasWord term text = false := by
    rwa [← Bool.not_eq_true, hasWord_iff_occurs]
  have hthrough := replaceWord_replaceWord hword hterm hlacks
  refine ⟨hthrough, ?_, fun before after => isPlace_replaceWord_of_fresh hword hterm hfresh⟩
  rw [hthrough, replaceWord_self hword]

theorem related_replaced_through_fresh :
    ¬ Occurs "t1".toList "∀x(R(x,xy)∧éx)".toList ∧
      replaceWord (replaceWord "∀x(R(x,xy)∧éx)".toList ['x'] "t1".toList) "t1".toList
        "a_0".toList = "∀a_0(R(a_0,xy)∧éa_0)".toList ∧
      replaceWord (replaceWord "∀x(R(x,xy)∧éx)".toList ['x'] "t1".toList) "t1".toList ['x'] =
        "∀x(R(x,xy)∧éx)".toList ∧
      IsPlace "t1".toList (replaceWord "∀x(R(x,xy)∧éx)".toList ['x'] "t1".toList)
        "∀t1(R(".toList ",xy)∧ét1)".toList ∧
      ¬ Occurs ['x'] (replaceWord "∀x(R(x,xy)∧éx)".toList ['x'] "t1".toList) := by
  have hword : IsRun ['x'] := isRun_singleton (by decide)
  have hterm : IsRun "t1".toList := ⟨by decide, List.all_eq_true.mp (by decide)⟩
  have hfresh : ¬ Occurs "t1".toList "∀x(R(x,xy)∧éx)".toList := by decide
  obtain ⟨hresults, hleft⟩ :=
    replaceWord_through_fresh hword hterm "∀x(R(x,xy)∧éx)".toList
  obtain ⟨hthrough, hback, hplaces⟩ := hresults hfresh
  refine ⟨hfresh, ?_, hback, ?_, hleft (by decide)⟩
  · rw [hthrough]
    decide
  · rw [hplaces]
    exact ⟨"∀x(R(".toList, ",xy)∧éx)".toList, ⟨by decide, by decide, by decide⟩, by decide,
      by decide⟩

end Replacement

end Deduction.Text
