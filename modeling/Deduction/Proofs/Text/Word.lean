import Deduction.Text.Word

namespace Deduction.Text

/-- Word characters, at least one. -/
structure IsRun (word : List Char) : Prop where
  ne_nil : word ≠ []
  isWordChar : ∀ c ∈ word, isWordChar c = true

theorem isRun_singleton {c : Char} (hc : isWordChar c = true) : IsRun [c] where
  ne_nil := List.cons_ne_nil c []
  isWordChar := by simpa using hc

theorem isBoundary_head?_dropWhile (text : List Char) :
    isBoundary (text.dropWhile isWordChar).head? = true := by
  have hstops := List.head?_dropWhile_not isWordChar text
  cases hhead : (text.dropWhile isWordChar).head? with
  | none => rfl
  | some c => simpa [hhead, isBoundary] using hstops

theorem runInduction {motive : List Char → Prop} (text : List Char) (nil : motive [])
    (other : ∀ c rest, isWordChar c = false → motive rest → motive (c :: rest))
    (run : ∀ word rest, IsRun word → isBoundary rest.head? = true → motive rest →
      motive (word ++ rest)) : motive text := by
  induction hlength : text.length using Nat.strongRecOn generalizing text with
  | _ length ih =>
      cases text with
      | nil => exact nil
      | cons c text =>
          rw [List.length_cons] at hlength
          by_cases hc : isWordChar c = true
          · have hshorter := (List.dropWhile_suffix (p := isWordChar) (l := text)).length_le
            have hrest := ih _ (by omega) (text.dropWhile isWordChar) rfl
            have hrun : IsRun (c :: text.takeWhile isWordChar) := by
              refine ⟨List.cons_ne_nil _ _, List.forall_mem_cons.mpr ⟨hc, ?_⟩⟩
              exact List.all_eq_true.mp List.all_takeWhile
            have htext := run _ _ hrun (isBoundary_head?_dropWhile text) hrest
            rwa [List.cons_append, List.takeWhile_append_dropWhile] at htext
          · exact other c text (Bool.eq_false_iff.mpr hc) (ih _ (by omega) text rfl)

theorem exists_append_of_run {run word rest rest' : List Char}
    (hrun : ∀ c ∈ run, isWordChar c = true) (hrest' : isBoundary rest'.head? = true)
    (heq : run ++ rest = word ++ rest') : ∃ more, word = run ++ more ∧ rest = more ++ rest' := by
  rcases List.append_eq_append_iff.mp heq with ⟨more, rfl, rfl⟩ | ⟨more, rfl, rfl⟩
  · exact ⟨more, rfl, rfl⟩
  · cases more with
    | nil => exact ⟨[], by simp, rfl⟩
    | cons c more =>
        have hc := hrun c (by simp)
        simp [isBoundary, hc] at hrest'

section Occurrence

variable {word run rest : List Char}

theorem isPrefixOf_of_boundary (hword : IsRun word) (hrest : isBoundary rest.head? = true) :
    word.isPrefixOf rest = false := by
  obtain ⟨c, word, rfl⟩ := List.exists_cons_of_ne_nil hword.ne_nil
  cases rest with
  | nil => rfl
  | cons d rest =>
      have hd : isWordChar d = false := by simpa [isBoundary] using hrest
      have hne : c ≠ d := by
        rintro rfl
        rw [hword.isWordChar c List.mem_cons_self] at hd
        contradiction
      simp [List.isPrefixOf, hne]

theorem startsWithWord_run (hword : IsRun word) (hrun : IsRun run)
    (hrest : isBoundary rest.head? = true) (previous : Option Char) :
    startsWithWord word previous (run ++ rest) = true ↔
      isBoundary previous = true ∧ run = word := by
  simp only [startsWithWord, Bool.and_eq_true, List.isPrefixOf_iff_prefix, and_assoc,
    and_congr_right_iff]
  intro _
  constructor
  · rintro ⟨⟨tail, htail⟩, hends⟩
    rcases List.append_eq_append_iff.mp htail with ⟨more, rfl, -⟩ | ⟨more, rfl, rfl⟩
    · -- What is left of the run would go on with the word.
      cases more with
      | nil => simp
      | cons c more =>
          have hc := hrun.isWordChar c (by simp)
          simp [isBoundary, hc] at hends
    · cases more with
      | nil => simp
      | cons c more =>
          have hc := hword.isWordChar c (by simp)
          simp [isBoundary, hc] at hrest
  · rintro rfl
    exact ⟨List.prefix_append _ _, by simpa using hrest⟩

theorem startsWithWord_other {c : Char} (hword : IsRun word) (hc : isWordChar c = false)
    (previous : Option Char) : startsWithWord word previous (c :: rest) = false := by
  have hbegins : word.isPrefixOf (c :: rest) = false :=
    isPrefixOf_of_boundary hword (by simp [isBoundary, hc])
  simp [startsWithWord, hbegins]

theorem startsWithWord_inside {previous : Char} (hprevious : isWordChar previous = true) :
    startsWithWord word (some previous) rest = false := by
  simp [startsWithWord, isBoundary, hprevious]

theorem hasWordFrom_run {previous : Char} (hprevious : isWordChar previous = true)
    (hrun : ∀ c ∈ run, isWordChar c = true) (hword : IsRun word)
    (hrest : isBoundary rest.head? = true) :
    hasWordFrom word (some previous) (run ++ rest) = hasWord word rest := by
  induction run generalizing previous with
  | nil =>
      cases rest with
      | nil => simp [hasWord, hasWordFrom, startsWithWord, isPrefixOf_of_boundary hword hrest]
      | cons d rest =>
          have hd : isWordChar d = false := by simpa [isBoundary] using hrest
          simp [hasWord, hasWordFrom, startsWithWord_other hword hd]
  | cons c run ih =>
      obtain ⟨hc, hrun⟩ := List.forall_mem_cons.mp hrun
      rw [List.cons_append, hasWordFrom, startsWithWord_inside hprevious, Bool.false_or]
      exact ih hc hrun

theorem hasWord_nil (hword : IsRun word) : hasWord word [] = false := by
  simp [hasWord, hasWordFrom, startsWithWord, hword.ne_nil]

theorem hasWord_other {c : Char} (hword : IsRun word) (hc : isWordChar c = false)
    (rest : List Char) : hasWord word (c :: rest) = hasWord word rest := by
  have hboundary : isBoundary (some c) = isBoundary none := by simp [isBoundary, hc]
  rw [hasWord, hasWordFrom, startsWithWord_other hword hc, Bool.false_or]
  cases rest with
  | nil => simp [hasWord, hasWordFrom, startsWithWord, hboundary]
  | cons d rest => simp [hasWord, hasWordFrom, startsWithWord, hboundary]

theorem hasWord_run (hword : IsRun word) (hrun : IsRun run)
    (hrest : isBoundary rest.head? = true) :
    hasWord word (run ++ rest) = true ↔ run = word ∨ hasWord word rest = true := by
  have hstarts := startsWithWord_run hword hrun hrest none
  obtain ⟨c, tail, rfl⟩ := List.exists_cons_of_ne_nil hrun.ne_nil
  obtain ⟨hc, htail⟩ := List.forall_mem_cons.mp hrun.isWordChar
  rw [List.cons_append] at hstarts ⊢
  rw [hasWord, hasWordFrom, Bool.or_eq_true, hstarts, hasWordFrom_run hc htail hword hrest]
  simp [isBoundary]

theorem hasWord_run_eq_false (hword : IsRun word) (hrun : IsRun run)
    (hrest : isBoundary rest.head? = true) (hnone : hasWord word (run ++ rest) = false) :
    run ≠ word ∧ hasWord word rest = false := by
  rw [← Bool.not_eq_true, hasWord_run hword hrun hrest, not_or] at hnone
  simpa using hnone

end Occurrence

section Replacement

variable {word term run rest : List Char}

theorem replaceWord_nil (hword : IsRun word) : replaceWord [] word term = [] := by
  simp [replaceWord, replaceWordFrom, hword.ne_nil]

theorem replaceWordFrom_of_boundary (hword : IsRun word) (hrest : isBoundary rest.head? = true)
    (previous : Option Char) :
    replaceWordFrom word term previous 0 rest = replaceWord rest word term := by
  cases rest with
  | nil => simp [replaceWord, replaceWordFrom, hword.ne_nil]
  | cons c rest =>
      have hc : isWordChar c = false := by simpa [isBoundary] using hrest
      simp [replaceWord, replaceWordFrom, startsWithWord_other hword hc]

theorem replaceWord_other {c : Char} (hword : IsRun word) (hc : isWordChar c = false)
    (rest : List Char) : replaceWord (c :: rest) word term = c :: replaceWord rest word term := by
  have hboundary : isBoundary (some c) = isBoundary none := by simp [isBoundary, hc]
  rw [replaceWord, replaceWordFrom, startsWithWord_other hword hc, if_neg Bool.false_ne_true]
  cases rest with
  | nil => simp [replaceWord, replaceWordFrom, hword.ne_nil]
  | cons d rest => simp [replaceWord, replaceWordFrom, startsWithWord, hboundary]

theorem replaceWordFrom_run {previous : Char} (hprevious : isWordChar previous = true)
    (hrun : ∀ c ∈ run, isWordChar c = true) (hword : IsRun word)
    (hrest : isBoundary rest.head? = true) :
    replaceWordFrom word term (some previous) 0 (run ++ rest) =
      run ++ replaceWord rest word term := by
  induction run generalizing previous with
  | nil => exact replaceWordFrom_of_boundary hword hrest _
  | cons c run ih =>
      obtain ⟨hc, hrun⟩ := List.forall_mem_cons.mp hrun
      rw [List.cons_append, replaceWordFrom, startsWithWord_inside hprevious,
        if_neg Bool.false_ne_true, ih hc hrun]
      rfl

theorem replaceWordFrom_passed (hword : IsRun word) (hrest : isBoundary rest.head? = true)
    (passed : List Char) (previous : Option Char) :
    replaceWordFrom word term previous passed.length (passed ++ rest) =
      replaceWord rest word term := by
  induction passed generalizing previous with
  | nil => exact replaceWordFrom_of_boundary hword hrest previous
  | cons c passed ih =>
      rw [List.length_cons, List.cons_append, replaceWordFrom]
      exact ih (some c)

theorem replaceWord_run (hword : IsRun word) (hrun : IsRun run)
    (hrest : isBoundary rest.head? = true) :
    replaceWord (run ++ rest) word term =
      (if run = word then term else run) ++ replaceWord rest word term := by
  have hstarts := startsWithWord_run hword hrun hrest none
  obtain ⟨c, tail, rfl⟩ := List.exists_cons_of_ne_nil hrun.ne_nil
  obtain ⟨hc, htail⟩ := List.forall_mem_cons.mp hrun.isWordChar
  rw [List.cons_append] at hstarts ⊢
  rw [replaceWord, replaceWordFrom]
  by_cases hsame : c :: tail = word
  · subst hsame
    rw [if_pos (hstarts.mpr ⟨rfl, rfl⟩), if_neg (by simp), if_pos rfl, List.length_cons,
      Nat.add_sub_cancel, replaceWordFrom_passed hword hrest]
  · rw [if_neg (fun h => hsame (hstarts.mp h).2), if_neg hsame,
      replaceWordFrom_run hc htail hword hrest]
    rfl

theorem isBoundary_head?_replaceWord (hword : IsRun word) (hrest : isBoundary rest.head? = true) :
    isBoundary (replaceWord rest word term).head? = true := by
  cases rest with
  | nil => simp [replaceWord_nil hword, isBoundary]
  | cons c rest =>
      have hc : isWordChar c = false := by simpa [isBoundary] using hrest
      rw [replaceWord_other hword hc]
      exact hrest

theorem replaceWord_append_other {c : Char} (hword : IsRun word) (hc : isWordChar c = false)
    (text rest : List Char) :
    replaceWord (text ++ c :: rest) word term =
      replaceWord text word term ++ c :: replaceWord rest word term := by
  induction text using runInduction with
  | nil =>
      rw [List.nil_append, replaceWord_other hword hc, replaceWord_nil hword, List.nil_append]
  | other d text hd ih =>
      rw [List.cons_append, replaceWord_other hword hd, replaceWord_other hword hd, ih,
        List.cons_append]
  | run run text hrun htext ih =>
      have hbefore : isBoundary (text ++ c :: rest).head? = true := by
        cases text with
        | nil => simp [isBoundary, hc]
        | cons d text => simpa using htext
      rw [List.append_assoc, replaceWord_run hword hrun hbefore, replaceWord_run hword hrun htext,
        ih, List.append_assoc]

/-- A word that the text lacks stands for the word replaced in a second replacement. -/
theorem replaceWord_replaceWord {text : List Char} (hword : IsRun word) (hterm : IsRun term)
    (hfresh : hasWord term text = false) (second : List Char) :
    replaceWord (replaceWord text word term) term second = replaceWord text word second := by
  induction text using runInduction with
  | nil => rw [replaceWord_nil hword, replaceWord_nil hterm, replaceWord_nil hword]
  | other c rest hc ih =>
      rw [replaceWord_other hword hc, replaceWord_other hterm hc, replaceWord_other hword hc,
        ih ((hasWord_other hterm hc rest).symm.trans hfresh)]
  | run run rest hrun hrest ih =>
      obtain ⟨hother, hfreshRest⟩ := hasWord_run_eq_false hterm hrun hrest hfresh
      have hmiddle : isBoundary (replaceWord rest word term).head? = true :=
        isBoundary_head?_replaceWord hword hrest
      rw [replaceWord_run hword hrun hrest, replaceWord_run hword hrun hrest]
      by_cases hsame : run = word
      · rw [if_pos hsame, if_pos hsame, replaceWord_run hterm hterm hmiddle, if_pos rfl,
          ih hfreshRest]
      · rw [if_neg hsame, if_neg hsame, replaceWord_run hterm hrun hmiddle, if_neg hother,
          ih hfreshRest]

theorem replaceWord_of_hasWord_eq_false {text : List Char} (hword : IsRun word)
    (hnone : hasWord word text = false) : replaceWord text word term = text := by
  induction text using runInduction with
  | nil => exact replaceWord_nil hword
  | other c rest hc ih =>
      rw [hasWord_other hword hc] at hnone
      rw [replaceWord_other hword hc, ih hnone]
  | run run rest hrun hrest ih =>
      obtain ⟨hother, hnone⟩ := hasWord_run_eq_false hword hrun hrest hnone
      rw [replaceWord_run hword hrun hrest, if_neg hother, ih hnone]

/-- After a replacement a word stands where it stood before, unless it was replaced, and where it
replaced another. -/
theorem hasWord_replaceWord {other : List Char} (hword : IsRun word) (hterm : IsRun term)
    (hother : IsRun other) (text : List Char) :
    hasWord other (replaceWord text word term) = true ↔
      (other ≠ word ∧ hasWord other text = true) ∨ (other = term ∧ hasWord word text = true) := by
  induction text using runInduction with
  | nil => simp [replaceWord_nil hword, hasWord_nil hother, hasWord_nil hword]
  | other c rest hc ih =>
      rw [replaceWord_other hword hc, hasWord_other hother hc, hasWord_other hother hc,
        hasWord_other hword hc]
      exact ih
  | run run rest hrun hrest ih =>
      have hmiddle : isBoundary (replaceWord rest word term).head? = true :=
        isBoundary_head?_replaceWord hword hrest
      rw [replaceWord_run hword hrun hrest, hasWord_run hother hrun hrest,
        hasWord_run hword hrun hrest]
      by_cases hsame : run = word
      · rw [if_pos hsame, hasWord_run hother hterm hmiddle, ih]
        grind
      · rw [if_neg hsame, hasWord_run hother hrun hmiddle, ih]
        grind

theorem replaceWord_self (hword : IsRun word) (text : List Char) :
    replaceWord text word word = text := by
  induction text using runInduction with
  | nil => exact replaceWord_nil hword
  | other c rest hc ih => rw [replaceWord_other hword hc, ih]
  | run run rest hrun hrest ih =>
      rw [replaceWord_run hword hrun hrest, ih]
      split
      · rename_i hsame
        rw [hsame]
      · rfl

theorem replaceWord_inj {text text' : List Char} (hword : IsRun word) (hterm : IsRun term)
    (hfresh : hasWord term text = false) (hfresh' : hasWord term text' = false)
    (heq : replaceWord text word term = replaceWord text' word term) : text = text' := by
  have hback := replaceWord_replaceWord hword hterm hfresh word
  have hback' := replaceWord_replaceWord hword hterm hfresh' word
  rw [replaceWord_self hword] at hback hback'
  rw [← hback, ← hback', heq]

/-- Two texts that lack a word agree, each with a word of its own replaced by that one, if they are
the same with the same word replaced, or if the second text is the first with its word renamed to
one that it lacks. -/
theorem replaceWord_eq_replaceWord_iff {word' text text' : List Char} (hword : IsRun word)
    (hword' : IsRun word') (hterm : IsRun term) (hfresh : hasWord term text = false)
    (hfresh' : hasWord term text' = false) :
    replaceWord text word term = replaceWord text' word' term ↔
      (word = word' ∧ text = text') ∨
        (word ≠ word' ∧ hasWord word' text = false ∧ text' = replaceWord text word word') := by
  constructor
  · intro heq
    by_cases hsame : word = word'
    · subst hsame
      exact Or.inl ⟨rfl, replaceWord_inj hword hterm hfresh hfresh' heq⟩
    · refine Or.inr ⟨hsame, ?_, ?_⟩
      · -- The second word would be left standing on the first side alone.
        rw [Bool.eq_false_iff]
        intro hleft
        have hstands := (hasWord_replaceWord hword hterm hword' text).mpr
          (Or.inl ⟨Ne.symm hsame, hleft⟩)
        rw [heq, hasWord_replaceWord hword' hterm hword'] at hstands
        rcases hstands with ⟨hne, -⟩ | ⟨rfl, hmem⟩
        · exact hne rfl
        · rw [hfresh'] at hmem
          contradiction
      · calc text' = replaceWord text' word' word' := (replaceWord_self hword' text').symm
          _ = replaceWord (replaceWord text' word' term) term word' :=
            (replaceWord_replaceWord hword' hterm hfresh' word').symm
          _ = replaceWord (replaceWord text word term) term word' := by rw [heq]
          _ = replaceWord text word word' := replaceWord_replaceWord hword hterm hfresh word'
  · rintro (⟨rfl, rfl⟩ | ⟨-, hlacks, rfl⟩)
    · rfl
    · exact (replaceWord_replaceWord hword hword' hlacks term).symm

end Replacement

section Identifiers

variable {first : Char} {tail rest : List Char}

theorem identifiers_other {c : Char} (hc : isLetter c = false) (rest : List Char) :
    identifiers (c :: rest) = identifiers rest := by
  rw [identifiers, if_neg (by simp [hc])]

theorem identifiers_run (hletter : isLetter first = true)
    (htail : ∀ c ∈ tail, isWordChar c = true) (hrest : isBoundary rest.head? = true) :
    identifiers (first :: tail ++ rest) = (first :: tail) :: identifiers rest := by
  have hstops : rest.takeWhile isWordChar = [] ∧ rest.dropWhile isWordChar = rest := by
    cases rest with
    | nil => simp
    | cons c rest =>
        have hc : isWordChar c = false := by simpa [isBoundary] using hrest
        simp [hc]
  rw [List.cons_append, identifiers, if_pos hletter, List.takeWhile_append_of_pos htail,
    List.dropWhile_append_of_pos htail, hstops.1, hstops.2, List.append_nil]

theorem identifiers_append_run {run : List Char} (hrun : ∀ c ∈ run, isWordChar c = true)
    (hrest : isBoundary rest.head? = true) :
    identifiers (run ++ rest) = identifiers run ++ identifiers rest := by
  induction run with
  | nil => simp [identifiers]
  | cons c run ih =>
      obtain ⟨hc, hrun⟩ := List.forall_mem_cons.mp hrun
      by_cases hletter : isLetter c = true
      · have halone : identifiers (c :: run ++ []) = (c :: run) :: identifiers [] :=
          identifiers_run hletter hrun rfl
        rw [List.append_nil] at halone
        rw [identifiers_run hletter hrun hrest, halone]
        simp [identifiers]
      · rw [Bool.not_eq_true] at hletter
        rw [List.cons_append, identifiers_other hletter, identifiers_other hletter, ih hrun]

/-- An identifier that stands as a whole word is among the identifiers of the text. -/
theorem mem_identifiers_of_hasWord {text : List Char} (hletter : isLetter first = true)
    (htail : ∀ c ∈ tail, isWordChar c = true) (hstands : hasWord (first :: tail) text = true) :
    first :: tail ∈ identifiers text := by
  have hword : IsRun (first :: tail) := by
    refine ⟨List.cons_ne_nil _ _, List.forall_mem_cons.mpr ⟨?_, htail⟩⟩
    exact isWordChar_of_isLetter hletter
  induction text using runInduction with
  | nil =>
      rw [hasWord_nil hword] at hstands
      contradiction
  | other c rest hc ih =>
      have hother : isLetter c = false := by
        rw [Bool.eq_false_iff]
        intro hletter
        rw [isWordChar_of_isLetter hletter] at hc
        contradiction
      rw [hasWord_other hword hc] at hstands
      rw [identifiers_other hother]
      exact ih hstands
  | run run rest hrun hrest ih =>
      rcases (hasWord_run hword hrun hrest).mp hstands with rfl | hstands
      · rw [identifiers_run hletter htail hrest]
        exact List.mem_cons_self
      · rw [identifiers_append_run hrun.isWordChar hrest]
        exact List.mem_append_right _ (ih hstands)

theorem exists_cons_of_mem_identifiers {word text : List Char} (hword : word ∈ identifiers text) :
    ∃ first tail, word = first :: tail ∧ isLetter first = true ∧
      ∀ c ∈ tail, isWordChar c = true := by
  fun_induction identifiers text with
  | case1 => simp at hword
  | case2 c rest hletter ih =>
      rcases List.mem_cons.mp hword with rfl | hword
      · exact ⟨c, _, rfl, hletter, List.all_eq_true.mp List.all_takeWhile⟩
      · exact ih hword
  | case3 c rest _ ih => exact ih hword

theorem subset_of_mem_identifiers {word text : List Char} (hword : word ∈ identifiers text) :
    word ⊆ text := by
  fun_induction identifiers text with
  | case1 => simp at hword
  | case2 c rest hletter ih =>
      rcases List.mem_cons.mp hword with rfl | hword
      · exact List.cons_subset_cons c (List.takeWhile_sublist _).subset
      · have hrest := List.Subset.trans (ih hword) (List.dropWhile_sublist isWordChar).subset
        exact List.subset_cons_of_subset c hrest
  | case3 c rest _ ih => exact List.subset_cons_of_subset c (ih hword)

end Identifiers

end Deduction.Text
