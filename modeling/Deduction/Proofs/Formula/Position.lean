import Deduction.Proofs.Formula.Remainder
import Deduction.Proofs.Formula.Tokenization

/-!
Where an unexpected character stands.

A strict reading fails at the first character that starts no token, and its position counts the
characters of the respelled text. That character is never one of a replacement: it is a character of
the source, and what stands on its two sides there is respelled apart. So the position is the length
of the respelled text before it. Spellings of another length than what replaces them move it away
from the place in the source.
-/

namespace Deduction.Token

open Text

theorem IsLexeme.getLast?_ne {kind : TokenKind} {word : List Char} (hword : IsLexeme kind word) :
    word.getLast? ≠ some '<' ∧ word.getLast? ≠ some '-' := by
  cases hword with
  | sign hsign =>
      cases kind with
      | identifier => contradiction
      | finish => contradiction
      | _ =>
          obtain rfl := Option.some.inj hsign
          decide
  | identifier hletter hword hother =>
      have hchars := (IsLexeme.identifier hletter hword hother).forall_isWordChar
      constructor
      all_goals
        intro hlast
        exact absurd (hchars _ (List.mem_of_getLast? hlast)) (by decide)

theorem Spells.getLast?_ne {position : Nat} {text : List Char} {tokens : List Token}
    (hspells : Spells position text tokens) :
    text.getLast? ≠ some '<' ∧ text.getLast? ≠ some '-' := by
  induction hspells with
  | done => simp
  | @blank position c rest tokens hblank _ ih =>
      cases rest with
      | nil =>
          constructor
          all_goals
            intro hlast
            obtain rfl := Option.some.inj hlast
            exact absurd hblank (by decide)
      | cons d rest => rwa [List.getLast?_cons_cons]
  | @token position kind word rest tokens hword _ _ ih =>
      rw [List.getLast?_append]
      cases hlast : rest.getLast? with
      | none => exact hword.getLast?_ne
      | some d => rwa [hlast] at ih

end Deduction.Token

namespace Deduction.Formula

open Text Token

/-- A scan can stop at the character: it is in no token, and the texts on its two sides do not make
one of it. -/
structure Stops (before : List Char) (c : Char) (after : List Char) : Prop where
  strange : (isBlank c || isLetter c || c == '!' || c == '^') = false
  uncut : before.getLast? ≠ some '<' ∧ before.getLast? ≠ some '-'
  noLong : c = '<' → ¬ ['-', '>'] <+: after
  noShort : c = '-' → after.head? ≠ some '>'

theorem stops_of_spells {position : Nat} {before after : List Char} {tokens : List Token} {c : Char}
    (hspells : Spells position before tokens) (hblank : isBlank c = false)
    (hnone : lexeme? (c :: after) = none) : Stops before c after where
  strange := by
    have hletter : isLetter c = false := by
      rw [Bool.eq_false_iff]
      intro hletter
      rw [lexeme?_letter hletter] at hnone
      cases hnone
    have hsigns : c ≠ '!' ∧ c ≠ '^' := by
      constructor <;> rintro rfl <;> cases hnone
    simp [hblank, hletter, hsigns]
  uncut := hspells.getLast?_ne
  noLong := by
    rintro rfl ⟨rest, rfl⟩
    cases hnone
  noShort := by
    rintro rfl hhead
    obtain ⟨rest, rfl⟩ := List.head?_eq_some_iff.mp hhead
    cases hnone

/-- A spelling and its replacement: the spelling neither begins nor breaks off inside an arrow, and
the replacement is an arrow or has no character at which a scan stops. -/
def IsMild (entry : List Char × List Char) : Prop :=
  (entry.1 ≠ [] ∧ '-' ∉ entry.1 ∧ entry.1.head? ≠ some '>' ∧ entry.1.getLast? ≠ some '<') ∧
    (entry.2 = ['<', '-', '>'] ∨ entry.2 = ['-', '>'] ∨
      (entry.2.all fun d => isBlank d || isLetter d || d == '!' || d == '^') = true)

instance (entry : List Char × List Char) : Decidable (IsMild entry) :=
  inferInstanceAs (Decidable (_ ∧ _))

theorem isMild_of_mem_spellings : ∀ entry ∈ spellings, IsMild entry := by
  decide

section Entries

variable {entry : List Char × List Char} {before after : List Char} {c : Char}

/-- A scan does not stop inside a replacement. -/
theorem Stops.not_liesOver (hstops : Stops before c after) (hmild : IsMild entry) :
    ¬ LiesOver entry.2 before c after := by
  rintro ⟨first, second, hpiece, hbefore, hafter⟩
  have hlast : ∀ d start, first = start ++ [d] → before.getLast? = some d := by
    rintro d start rfl
    obtain ⟨more, rfl⟩ := hbefore
    simp
  rcases hmild.2 with hlong | hshort | hplain
  -- The character is the first, the second or the last one of the arrow.
  · rw [hlong] at hpiece
    rcases first with _ | ⟨x, _ | ⟨y, _ | ⟨z, first⟩⟩⟩
    · obtain ⟨rfl, rfl⟩ := List.cons.inj hpiece
      exact hstops.noLong rfl hafter
    · obtain ⟨rfl, -⟩ := List.cons.inj hpiece
      exact hstops.uncut.1 (hlast _ [] rfl)
    · simp only [List.cons_append, List.nil_append, List.cons.injEq] at hpiece
      obtain ⟨rfl, rfl, -⟩ := hpiece
      exact hstops.uncut.2 (hlast _ ['<'] rfl)
    · simp at hpiece
  · rw [hshort] at hpiece
    rcases first with _ | ⟨x, _ | ⟨y, first⟩⟩
    · obtain ⟨rfl, rfl⟩ := List.cons.inj hpiece
      obtain ⟨rest, rfl⟩ := hafter
      exact hstops.noShort rfl rfl
    · obtain ⟨rfl, -⟩ := List.cons.inj hpiece
      exact hstops.uncut.2 (hlast _ [] rfl)
    · simp at hpiece
  · have hc : c ∈ entry.2 := by simp [hpiece]
    have hkind := List.all_eq_true.mp hplain c hc
    rw [hstops.strange] at hkind
    contradiction

/-- Where a scan stops after a replacement, it could stop before it. -/
theorem Stops.of_replaceAll (hmild : IsMild entry)
    (hstops : Stops (replaceAll entry.1 entry.2 before) c (replaceAll entry.1 entry.2 after)) :
    Stops before c after := by
  obtain ⟨⟨hsome, hdash, hhead, hlast⟩, -⟩ := hmild
  have hdashHead : entry.1.head? ≠ some '-' := fun heq => hdash (List.mem_of_head? heq)
  have hdashLast : entry.1.getLast? ≠ some '-' := fun heq => hdash (List.mem_of_getLast? heq)
  have hends : ∀ d, entry.1.getLast? ≠ some d →
      (replaceAll entry.1 entry.2 before).getLast? ≠ some d → before.getLast? ≠ some d := by
    intro d hpattern hresult heq
    obtain ⟨start, rfl⟩ := List.getLast?_eq_some_iff.mp heq
    rw [replaceAll_concat hsome hpattern] at hresult
    simp at hresult
  constructor
  · exact hstops.strange
  · exact ⟨hends _ hlast hstops.uncut.1, hends _ hdashLast hstops.uncut.2⟩
  · rintro rfl ⟨rest, rfl⟩
    apply hstops.noLong rfl
    rw [List.cons_append, List.cons_append, replaceAll_cons_of_head? hsome hdashHead,
      replaceAll_cons_of_head? hsome hhead]
    exact List.prefix_append ['-', '>'] _
  · rintro rfl heq
    obtain ⟨rest, rfl⟩ := List.head?_eq_some_iff.mp heq
    apply hstops.noShort rfl
    rw [replaceAll_cons_of_head? hsome hhead]
    rfl

end Entries

/-- The character at which a scan of a replaced text stops is one of the source, and its two sides
are replaced apart. -/
theorem exists_of_replaceEach_eq {table : List (List Char × List Char)}
    (hmild : ∀ entry ∈ table, IsMild entry) {text before after : List Char} {c : Char}
    (heq : replaceEach table text = before ++ c :: after) (hstops : Stops before c after) :
    ∃ source rest, text = source ++ c :: rest ∧ replaceEach table source = before ∧
      replaceEach table rest = after ∧ Stops source c rest := by
  induction table generalizing text with
  | nil => exact ⟨before, after, heq, rfl, rfl, hstops⟩
  | cons entry table ih =>
      have hentry := hmild entry List.mem_cons_self
      rw [replaceEach_entry] at heq
      -- The later replacements are undone first: the stop before them is what this one keeps.
      obtain ⟨middle, others, hmiddle, rfl, rfl, hmiddleStops⟩ :=
        ih (fun other hother => hmild other (List.mem_cons_of_mem entry hother)) heq
      obtain ⟨source, rest, rfl, rfl, rfl⟩ :=
        exists_of_replaceAll_eq hentry.1.1 (hmiddleStops.not_liesOver hentry) hmiddle
      exact ⟨source, rest, rfl, rfl, rfl, hmiddleStops.of_replaceAll hentry⟩

theorem ofTokens_ne_unexpectedCharacter (lenient : Bool) (finish : Nat) (tokens : List Token)
    (c : Char) (position : Nat) :
    ofTokens lenient finish tokens ≠ .error (.unexpectedCharacter c position) := by
  intro hread
  rcases cases_of_ofTokens_error hread with ⟨-, herror⟩ | ⟨token, -, herror⟩ | hfails
  · cases herror
  · cases herror
  · cases hfails with
    | unclosed hopen => cases hopen

theorem scan_of_parse_error {text : String} {c : Char} {position : Nat}
    (hparse : parse false text = .error (.unexpectedCharacter c position)) :
    scan false (respell text.toList) = .error (.unexpectedCharacter c position) := by
  unfold parse at hparse
  generalize respell text.toList = plain at hparse ⊢
  have hplain : parsePlain false plain = .error (.unexpectedCharacter c position) := by
    split at hparse
    · contradiction
    · rename_i error hplain
      rw [if_neg Bool.false_ne_true] at hparse
      rw [hplain, Except.error.inj hparse]
  unfold parsePlain at hplain
  split at hplain
  · rename_i tokens hscan
    exact absurd hplain (ofTokens_ne_unexpectedCharacter false plain.length tokens c position)
  · rename_i error hscan
    rw [hscan, Except.error.inj hplain]

/-- A character of a spelling that is longer or shorter than what replaces it. -/
def stretches (c : Char) : Bool :=
  spellings.any fun entry => entry.1.length != entry.2.length && entry.1.contains c

theorem length_respell {text : List Char} (htext : ∀ c ∈ text, stretches c = false) :
    (respell text).length = text.length := by
  have htable : (spellings.all fun entry => (entry.1.any fun c => !!stretches c) ||
      (entry.1.length == entry.2.length && entry.2.all fun c => !stretches c)) = true := by
    decide +kernel
  exact length_replaceEach (fun entry hentry => (isMild_of_mem_spellings entry hentry).1.1) htable
    (fun c hc => by rw [htext c hc]; rfl)

/-- An unexpected character is one of the source, and the position of the error is the length of
the respelled text before it. It is the place of the character in the source if no spelling of
another length than what replaces it stands there. -/
theorem position_of_unexpectedCharacter {text : String} {c : Char} {position : Nat}
    (hparse : parse false text = .error (.unexpectedCharacter c position)) :
    ∃ before after, text.toList = before ++ c :: after ∧
      respell text.toList = respell before ++ c :: respell after ∧
      (∃ tokens, Spells 0 (respell before) tokens) ∧
      isBlank c = false ∧ lexeme? (c :: respell after) = none ∧
      position = (respell before).length ∧
      ((∀ d ∈ before, stretches d = false) →
        position = before.length ∧ text.toList[position]? = some c) := by
  obtain ⟨front, _, back, hplain, hhalts, herror⟩ :=
    scan_eq_error_iff.mp (scan_of_parse_error hparse)
  obtain ⟨rfl, hposition⟩ := SyntaxError.unexpectedCharacter.inj herror
  obtain ⟨⟨tokens, hspells⟩, -, -, hstray⟩ := halts_iff.mp hhalts
  have hblank := hstray.1 c rfl
  have hnone := lexeme?_eq_none_iff.mpr hstray.2
  obtain ⟨before, after, htext, rfl, rfl, -⟩ :=
    exists_of_replaceEach_eq isMild_of_mem_spellings hplain (stops_of_spells hspells hblank hnone)
  have hlength : position = (respell before).length := hposition
  refine ⟨before, after, htext, hplain, ⟨tokens, hspells⟩, hblank, hnone, hlength, ?_⟩
  intro hkept
  rw [length_respell hkept] at hlength
  refine ⟨hlength, ?_⟩
  rw [htext, hlength, List.getElem?_append_right (Nat.le_refl _), Nat.sub_self]
  rfl

theorem place_of_stray_character :
    parse false "A & $" = .error (.unexpectedCharacter '$' 4) ∧
      "A & $".toList[4]? = some '$' := by
  have hparse : parse false "A & $" = .error (.unexpectedCharacter '$' 4) := by rfl
  have hkept : ("A & $".toList.all fun d => !stretches d) = true := by decide +kernel
  obtain ⟨before, after, htext, -, -, -, -, -, hplace⟩ := position_of_unexpectedCharacter hparse
  refine ⟨hparse, (hplace ?_).2⟩
  intro d hd
  have hmem : d ∈ "A & $".toList := by
    rw [htext]
    exact List.mem_append_left _ hd
  simpa using List.all_eq_true.mp hkept d hmem

/-- A sign that is replaced by a longer text moves the position beyond the end of the source. -/
theorem position_past_source :
    ¬ ∀ text c position, parse false text = .error (.unexpectedCharacter c position) →
      position < text.toList.length ∧ text.toList[position]? = some c := by
  intro hall
  have hparse : parse false "A ∨ $" = .error (.unexpectedCharacter '$' 6) := by rfl
  exact absurd (hall _ _ _ hparse).1 (by decide)

end Deduction.Formula
