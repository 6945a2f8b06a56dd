import Deduction.Formula.Quantified
import Deduction.Proofs.Formula.CompactText

namespace Deduction

open Formula Text Token

namespace Token

variable {tokens : List Token}

theorem compact_spelling (hspelled : ∀ token ∈ tokens, token.IsSpelled) :
    compact (spelling tokens) = spelling tokens := by
  have hplain : ∀ c ∈ spelling tokens, isPlain c = true := by
    intro c hc
    obtain ⟨token, htoken, hmem⟩ := List.mem_flatMap.mp hc
    exact IsLexeme.isPlain (hspelled token htoken) hmem
  rw [compact, respell_of_isPlain hplain, removeBlanks]
  apply List.filter_eq_self.mpr
  intro c hc
  obtain ⟨token, htoken, hmem⟩ := List.mem_flatMap.mp hc
  simp [IsLexeme.isBlank_eq_false (hspelled token htoken) hmem]

section Fresh

variable {rest : List Char}

theorem startsWithWord_boundWord {c : Char} (hc : c ≠ '_') (previous : Option Char) :
    startsWithWord Quantified.boundWord previous (c :: rest) = false := by
  have hother : '_' ≠ c := hc.symm
  simp [startsWithWord, Quantified.boundWord, List.isPrefixOf, hother]

theorem hasWordFrom_boundWord_run {word : List Char} {previous : Char}
    (hrest : ∀ previous, hasWordFrom Quantified.boundWord previous rest = false)
    (hword : ∀ c ∈ word, isWordChar c = true) (hprevious : isWordChar previous = true) :
    hasWordFrom Quantified.boundWord (some previous) (word ++ rest) = false := by
  induction word generalizing previous with
  | nil => exact hrest _
  | cons c word ih =>
      obtain ⟨hc, hword⟩ := List.forall_mem_cons.mp hword
      rw [List.cons_append, hasWordFrom, startsWithWord_inside hprevious, Bool.false_or]
      exact ih hword hc

theorem hasWordFrom_boundWord_sign {word : List Char} (previous : Option Char)
    (hrest : ∀ previous, hasWordFrom Quantified.boundWord previous rest = false)
    (hword : ∀ c ∈ word, c ≠ '_') :
    hasWordFrom Quantified.boundWord previous (word ++ rest) = false := by
  induction word generalizing previous with
  | nil => exact hrest _
  | cons c word ih =>
      obtain ⟨hc, hword⟩ := List.forall_mem_cons.mp hword
      rw [List.cons_append, hasWordFrom, startsWithWord_boundWord hc, Bool.false_or]
      exact ih _ hword

theorem IsLexeme.hasWordFrom_boundWord {kind : TokenKind} {word : List Char}
    (hword : IsLexeme kind word) (previous : Option Char)
    (hrest : ∀ previous, hasWordFrom Quantified.boundWord previous rest = false) :
    hasWordFrom Quantified.boundWord previous (word ++ rest) = false := by
  cases hword with
  | sign hsign =>
      refine hasWordFrom_boundWord_sign previous hrest ?_
      cases kind with
      | identifier => contradiction
      | finish => contradiction
      | _ =>
          obtain rfl := Option.some.inj hsign
          simp
  | @identifier first tail hletter htail _ =>
      have hfirst : first ≠ '_' := by
        rintro rfl
        exact absurd hletter (by decide)
      rw [List.cons_append, hasWordFrom, startsWithWord_boundWord hfirst, Bool.false_or]
      exact hasWordFrom_boundWord_run hrest htail (isWordChar_of_isLetter hletter)

/-- No token begins with an underscore, so the word for bound variables is nowhere a whole word. -/
theorem hasWord_boundWord_spelling (hspelled : ∀ token ∈ tokens, token.IsSpelled) :
    hasWord Quantified.boundWord (spelling tokens) = false := by
  have hfrom : ∀ previous,
      hasWordFrom Quantified.boundWord previous (spelling tokens) = false := by
    induction tokens with
    | nil =>
        intro previous
        simp [spelling, hasWordFrom, startsWithWord, Quantified.boundWord]
    | cons token tokens ih =>
        intro previous
        obtain ⟨htoken, hspelled⟩ := List.forall_mem_cons.mp hspelled
        rw [spelling_cons]
        exact IsLexeme.hasWordFrom_boundWord htoken previous (ih hspelled)
  exact hfrom none

end Fresh

end Token

namespace Quantifier

theorem read?_word (quantifier : Quantifier) (rest : List Char) :
    read? (quantifier.word.toList ++ rest) = some (quantifier, rest) := by
  cases quantifier with
  | universal => rfl
  | existential => rfl

theorem eq_of_read? {text rest : List Char} {quantifier : Quantifier}
    (hread : read? text = some (quantifier, rest)) : text = quantifier.word.toList ++ rest := by
  unfold read? at hread
  split at hread
  · cases hread
    rfl
  · cases hread
    rfl
  · cases hread

theorem isWordChar_of_mem_word {quantifier : Quantifier} {c : Char}
    (hc : c ∈ quantifier.word.toList) : isWordChar c = true := by
  cases quantifier with
  | universal => exact List.all_eq_true.mp (by decide) c hc
  | existential => exact List.all_eq_true.mp (by decide) c hc

theorem quantifierPrefix_of_toList (quantifier : Quantifier) {letter : Char} {name : String}
    (hletter : isLetter letter = true) (hname : name.toList = quantifier.word.toList ++ [letter]) :
    QuantifierPrefix name := by
  have htext : name = quantifier.word ++ String.ofList [letter] := by
    apply String.toList_inj.mp
    rw [hname, String.toList_append, String.toList_ofList]
  cases quantifier with
  | universal => exact ⟨letter, hletter, Or.inl htext⟩
  | existential => exact ⟨letter, hletter, Or.inr htext⟩

theorem exists_word_eq (quantifier : Quantifier) : ∃ first second rest,
    quantifier.word.toList = first :: second :: rest ∧ isLetter first = true := by
  cases quantifier with
  | universal => exact ⟨_, _, _, rfl, by decide⟩
  | existential => exact ⟨_, _, _, rfl, by decide⟩

theorem not_mem_word (quantifier : Quantifier) : 'v' ∉ quantifier.word.toList := by
  cases quantifier with
  | universal => decide
  | existential => decide

end Quantifier

namespace Quantified

/-- A quantified statement that is read from a text has a letter for its variable and a balanced
body. -/
structure IsReadable (statement : Quantified) : Prop where
  isLetter : Text.isLetter statement.bound = true
  isBalanced : Text.isBalanced statement.body = true

theorem render_eq (statement : Quantified) :
    statement.render = (statement.quantifier.word.toList ++ [statement.bound]) ++
      '(' :: (statement.body ++ [')']) := by
  simp [render]

theorem read?_render {statement : Quantified} (hreadable : statement.IsReadable) :
    read? statement.render = some statement := by
  obtain ⟨quantifier, bound, body⟩ := statement
  have hletter : Text.isLetter bound = true := hreadable.isLetter
  have hbalanced : Text.isBalanced body = true := hreadable.isBalanced
  rw [read?, render, List.append_assoc, Quantifier.read?_word]
  simp [hletter, hbalanced]

theorem eq_render_of_read? {text : List Char} {statement : Quantified}
    (hread : read? text = some statement) : text = statement.render ∧ statement.IsReadable := by
  unfold read? at hread
  split at hread
  · rename_i quantifier bound rest hquantifier
    rw [Option.ite_none_right_eq_some, Bool.and_eq_true, Bool.and_eq_true, beq_iff_eq] at hread
    obtain ⟨⟨⟨hletter, hlast⟩, hbalanced⟩, hstatement⟩ := hread
    cases hstatement
    refine ⟨?_, hletter, hbalanced⟩
    have hrest : rest.dropLast ++ [')'] = rest :=
      List.dropLast_append_getLast? ')' (by simpa using hlast)
    rw [Quantifier.eq_of_read? hquantifier, render, List.append_assoc]
    simp [hrest]
  · cases hread

theorem isRun_head (quantifier : Quantifier) {bound : Char}
    (hletter : Text.isLetter bound = true) : IsRun (quantifier.word.toList ++ [bound]) where
  ne_nil := by simp
  isWordChar := by
    intro c hc
    rcases List.mem_append.mp hc with hword | hbound
    · exact Quantifier.isWordChar_of_mem_word hword
    · rw [List.mem_singleton.mp hbound]
      exact isWordChar_of_isLetter hletter

theorem replaceWord_render {statement : Quantified}
    (hletter : Text.isLetter statement.bound = true) (term : List Char) :
    replaceWord statement.render [statement.bound] term =
      render { statement with body := statement.instantiate term } := by
  have hword : IsRun [statement.bound] := isRun_singleton (isWordChar_of_isLetter hletter)
  have hother : statement.quantifier.word.toList ++ [statement.bound] ≠ [statement.bound] := by
    cases statement.quantifier with
    | universal => simp [Quantifier.word]
    | existential => simp [Quantifier.word]
  have hnil : replaceWord [] [statement.bound] term = [] := by
    simp [replaceWord, replaceWordFrom]
  rw [render_eq, replaceWord_run hword (isRun_head _ hletter) rfl, if_neg hother,
    replaceWord_other hword (by decide), replaceWord_append_other hword (by decide), hnil]
  simp [render, instantiate]

theorem isRun_boundWord : IsRun boundWord where
  ne_nil := by simp [boundWord]
  isWordChar := List.all_eq_true.mp (by decide)

/-- Compact texts are equal up to the name of a bound variable only if they are equal, where both
have the same bound variable and neither has the word that stands for it. -/
theorem eq_of_alphaEqual {first second : List Char} (hfirst : compact first = first)
    (hsecond : compact second = second) (hfresh : hasWord boundWord first = false)
    (hfresh' : hasWord boundWord second = false)
    (hbound : ∀ a b, read? first = some a → read? second = some b → a.bound = b.bound)
    (halpha : alphaEqual first second = true) : first = second := by
  simp only [alphaEqual, parse?, hfirst, hsecond, Bool.or_eq_true, beq_iff_eq] at halpha
  rcases halpha with heq | halpha
  · exact heq
  · split at halpha
    · rename_i a b hread hread'
      obtain ⟨hrender, hreadable⟩ := eq_render_of_read? hread
      obtain ⟨hrender', hreadable'⟩ := eq_render_of_read? hread'
      have hsame := hbound a b hread hread'
      simp only [Bool.and_eq_true, beq_iff_eq] at halpha
      have hword : IsRun [a.bound] := isRun_singleton (isWordChar_of_isLetter hreadable.isLetter)
      have hreplaced := replaceWord_render hreadable'.isLetter boundWord
      refine replaceWord_inj hword isRun_boundWord hfresh hfresh' ?_
      rw [← hsame] at hreplaced
      rw [hrender, hrender', replaceWord_render hreadable.isLetter, hreplaced]
      simp only [render, halpha.1, halpha.2, hsame]
    · cases halpha

end Quantified

namespace Formula.IsTextOf

variable {formula formula' : Formula} {text text' : List Char}

theorem bound_eq {statement : Quantified} (htext : IsTextOf formula text)
    (hread : Quantified.read? text = some statement) : statement.bound = 'v' := by
  obtain ⟨hrender, hletter, -⟩ := Quantified.eq_render_of_read? hread
  obtain @⟨tokens, hspelled, hderives⟩ := htext
  obtain ⟨last, hrun, -⟩ := hderives.isOperand
  have hword := Quantified.isRun_head statement.quantifier hletter
  rw [Quantified.render_eq] at hrender
  obtain ⟨c, tail, hfirst⟩ := List.exists_cons_of_ne_nil hword.ne_nil
  rw [hfirst] at hrender
  obtain ⟨hc, htail⟩ := List.forall_mem_cons.mp (hfirst ▸ hword.isWordChar)
  obtain ⟨token, tokens', name, next, rfl, htoken, hrest, hkind, hstep, hrun'⟩ :=
    hrun.exists_first hspelled hrender
  obtain ⟨hspelledToken, hspelled'⟩ := List.forall_mem_cons.mp hspelled
  have hname : token.kind = .identifier := by simp [hkind, Phase.kindAt, hc]
  have hnameChars : ∀ d ∈ name, isWordChar d = true := fun d hd =>
    hspelledToken.forall_isWordChar hname d (by simp [htoken, hd])
  obtain rfl : next = .name token.text := by simp [hstep.next_eq, Phase.after, hname]
  obtain ⟨more, rfl, hmore⟩ := exists_append_of_run hnameChars rfl hrest.symm
  cases more with
  | nil =>
      -- The name has taken in the variable, and takes no arguments then.
      obtain ⟨opening, _, _, _, -, -, -, hopening, hstep', -⟩ := hrun'.exists_first hspelled' hmore
      have hprefix : QuantifierPrefix token.text := by
        refine statement.quantifier.quantifierPrefix_of_toList hletter ?_
        rw [htoken, hfirst, List.append_nil]
      change opening.kind = .openParen at hopening
      cases hstep' with
      | arguments hplain => exact absurd hprefix hplain
      | closing _ hother => simp [hother] at hopening
      | joining _ hother => simp [hopening] at hother
  | cons d more =>
      obtain ⟨sign, _, _, _, rfl, hsign, -, hkind', -, -⟩ := hrun'.exists_first hspelled' hmore
      have hd : isWordChar d = true := htail d (by simp)
      have hdisjunction : sign.kind = .disjunction := by simp [hkind', Phase.kindAt, hd]
      have hletters := (hspelled' sign List.mem_cons_self).toList_eq hdisjunction rfl
      obtain ⟨rfl, -⟩ := List.cons.inj (hsign.symm.trans hletters)
      have hmem : 'v' ∈ statement.quantifier.word.toList ++ [statement.bound] := by
        rw [hfirst]
        simp
      rcases List.mem_append.mp hmem with hinside | hbound
      · exact absurd hinside statement.quantifier.not_mem_word
      · exact (List.mem_singleton.mp hbound).symm

theorem eq_of_alphaEqual (htext : IsTextOf formula text) (htext' : IsTextOf formula' text')
    (halpha : Quantified.alphaEqual text text' = true) : text = text' := by
  have hbound : ∀ a b, Quantified.read? text = some a → Quantified.read? text' = some b →
      a.bound = b.bound := fun a b hread hread' =>
    (htext.bound_eq hread).trans (htext'.bound_eq hread').symm
  obtain ⟨hspelled, -⟩ := htext
  obtain ⟨hspelled', -⟩ := htext'
  exact Quantified.eq_of_alphaEqual (compact_spelling hspelled) (compact_spelling hspelled')
    (hasWord_boundWord_spelling hspelled) (hasWord_boundWord_spelling hspelled') hbound halpha

end Formula.IsTextOf

end Deduction
