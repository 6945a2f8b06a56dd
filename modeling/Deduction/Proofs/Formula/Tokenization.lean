import Deduction.Proofs.Formula.Cover

/-!
What a scan tells about a text, and what it loses.

A strict scan of a text succeeds exactly with the tokens that cover it, so nothing is lost but
blanks, and the texts of the tokens with a blank between any two of them scan to the same tokens. It
fails at the one place that covering tokens lead up to and where neither a blank nor a token begins.
A lenient scan puts a blank in such places: it finds what a strict one finds after that.
-/

namespace Deduction.Token

open Text

/-- Neither a blank nor a token begins the text. -/
def StartsNothing (text : List Char) : Prop :=
  (∀ c ∈ text.head?, isBlank c = false) ∧ ∀ kind word, IsLexeme kind word → ¬ word <+: text

/-- Tokens cover all of the first text before the second, and there neither a blank nor another
token begins. -/
def Halts (before after : List Char) : Prop :=
  (∃ tokens, Covers (before ++ after) 0 before.length tokens) ∧ after ≠ [] ∧ StartsNothing after

theorem IsLexeme.lexeme?_ne_none {kind : TokenKind} {word : List Char} (hword : IsLexeme kind word)
    (rest : List Char) : lexeme? (word ++ rest) ≠ none := by
  cases hword with
  | sign hsign =>
      cases kind with
      | identifier => contradiction
      | finish => contradiction
      | disjunction =>
          obtain rfl := Option.some.inj hsign
          rw [List.singleton_append, lexeme?_letter (by decide)]
          exact Option.some_ne_none _
      | _ =>
          obtain rfl := Option.some.inj hsign
          exact Option.some_ne_none _
  | identifier hletter _ _ =>
      rw [List.cons_append, lexeme?_letter hletter]
      exact Option.some_ne_none _

theorem lexeme?_eq_none_iff {text : List Char} :
    lexeme? text = none ↔ ∀ kind word, IsLexeme kind word → ¬ word <+: text := by
  constructor
  · rintro hnone kind word hword ⟨rest, rfl⟩
    exact hword.lexeme?_ne_none rest hnone
  · intro hnone
    cases hlexeme : lexeme? text with
    | none => rfl
    | some found =>
        obtain ⟨hword, rest, rfl, -⟩ := isLexeme_of_lexeme? hlexeme
        exact absurd (List.prefix_append _ rest) (hnone _ _ hword)

/-- A text is made of blanks, tokens and characters that are neither, in the order in which a scan
meets them. -/
theorem scanInduction {motive : List Char → Prop} (nil : motive [])
    (blank : ∀ c rest, isBlank c = true → motive rest → motive (c :: rest))
    (token : ∀ kind word rest, IsLexeme kind word → StopsBefore kind rest → motive rest →
      motive (word ++ rest))
    (stray : ∀ c rest, StartsNothing (c :: rest) → motive rest → motive (c :: rest))
    (text : List Char) : motive text := by
  induction hlength : text.length using Nat.strongRecOn generalizing text with
  | ind length ih =>
      subst hlength
      cases text with
      | nil => exact nil
      | cons c rest =>
          have hrest := ih rest.length (Nat.lt_succ_self _) rest rfl
          cases hblank : isBlank c with
          | true => exact blank c rest hblank hrest
          | false =>
              cases hlexeme : lexeme? (c :: rest) with
              | none =>
                  exact stray c rest ⟨by simpa using hblank, lexeme?_eq_none_iff.mp hlexeme⟩ hrest
              | some found =>
                  obtain ⟨hword, after, htext, hstops⟩ := isLexeme_of_lexeme? hlexeme
                  have hshorter : after.length < (c :: rest).length := by
                    rw [htext, List.length_append]
                    exact Nat.lt_add_of_pos_left (List.length_pos_iff.mpr hword.ne_nil)
                  rw [htext]
                  exact token _ _ after hword hstops (ih _ hshorter after rfl)

section Scans

variable {lenient : Bool} {position : Nat} {kind : TokenKind} {word rest : List Char}

theorem scanFrom_token (hword : IsLexeme kind word) (hstops : StopsBefore kind rest) :
    scanFrom lenient position 0 (word ++ rest) =
      (scanFrom lenient (position + word.length) 0 rest).map
        ({ kind, text := String.ofList word, position } :: ·) := by
  have hlexeme := hword.lexeme?_append hstops
  cases word with
  | nil => exact absurd rfl hword.ne_nil
  | cons c word =>
      have hblank := hword.isBlank_eq_false List.mem_cons_self
      have hskipped : scanFrom lenient (position + 1) ((c :: word).length - 1) (word ++ rest) =
          scanFrom lenient (position + (c :: word).length) 0 rest := by
        rw [List.length_cons, Nat.add_sub_cancel, scanFrom_skip _ _ (by simp), List.drop_left,
          Nat.add_assoc, Nat.add_comm 1]
      rw [List.cons_append] at hlexeme ⊢
      rw [scanFrom, if_neg (by simp [hblank]), hlexeme]
      simp only [hskipped]
      cases scanFrom lenient (position + (c :: word).length) 0 rest with
      | ok tokens => rfl
      | error error => rfl

theorem scanFrom_stray {c : Char} (hstray : StartsNothing (c :: rest)) :
    scanFrom lenient position 0 (c :: rest) =
      if lenient then scanFrom lenient (position + 1) 0 rest
      else .error (.unexpectedCharacter c position) := by
  have hblank := hstray.1 c rfl
  have hnone := lexeme?_eq_none_iff.mpr hstray.2
  rw [scanFrom, if_neg (by simp [hblank]), hnone]

theorem Spells.scanFrom_append {before after : List Char} {tokens : List Token}
    (hspells : Spells position before tokens) (hmeets : Meets before after) :
    scanFrom lenient position 0 (before ++ after) =
      (scanFrom lenient (position + before.length) 0 after).map (tokens ++ ·) := by
  induction hspells with
  | done =>
      cases hrest : scanFrom lenient _ 0 after with
      | ok tokens => exact hrest
      | error error => exact hrest
  | @blank position c rest tokens hblank _ ih =>
      rw [List.cons_append, scanFrom_blank hblank, ih hmeets.tail, List.length_cons,
        Nat.add_assoc, Nat.add_comm 1]
  | @token position kind word rest tokens hword hstops _ ih =>
      rw [List.append_assoc, scanFrom_token hword (hstops.append hword hmeets),
        ih hmeets.of_append, List.length_append, Nat.add_assoc]
      cases scanFrom lenient (position + (word.length + rest.length)) 0 after with
      | ok tokens => rfl
      | error error => rfl

/-- Every text begins with covered tokens, up to its end or to a place where nothing begins. -/
theorem exists_spells_append (position : Nat) (text : List Char) :
    ∃ before after tokens, text = before ++ after ∧ Spells position before tokens ∧
      Meets before after ∧ (after = [] ∨ StartsNothing after) := by
  induction text using scanInduction generalizing position with
  | nil => exact ⟨[], [], [], rfl, .done, meets_nil_left [], Or.inl rfl⟩
  | blank c rest hblank ih =>
      obtain ⟨before, after, tokens, rfl, hspells, hmeets, hend⟩ := ih (position + 1)
      exact ⟨c :: before, after, tokens, rfl, .blank hblank hspells, hmeets.cons_blank hblank,
        hend⟩
  | token kind word rest hword hstops ih =>
      obtain ⟨before, after, tokens, rfl, hspells, hmeets, hend⟩ := ih (position + word.length)
      exact ⟨word ++ before, after, _, (List.append_assoc _ _ _).symm,
        .token hword hstops.of_append hspells, hmeets.append_left hword hstops, hend⟩
  | stray c rest hstray _ =>
      exact ⟨[], c :: rest, [], rfl, .done, meets_nil_left _, Or.inr hstray⟩

end Scans

theorem halts_iff {before after : List Char} :
    Halts before after ↔
      (∃ tokens, Spells 0 before tokens) ∧ Meets before after ∧ after ≠ [] ∧
        StartsNothing after := by
  have hcovers : ∀ tokens, Covers (before ++ after) 0 before.length tokens ↔
      Spells 0 before tokens ∧ Meets before after := by
    intro tokens
    have hiff : Covers (before ++ after) 0 (0 + before.length) tokens ↔
        Spells 0 before tokens ∧ Meets before after := covers_iff_spells rfl
    rwa [Nat.zero_add] at hiff
  simp only [Halts, hcovers, exists_and_right, and_assoc]

theorem Halts.scan_eq {before after : List Char} {c : Char} (hhalts : Halts before (c :: after)) :
    scan false (before ++ c :: after) = .error (.unexpectedCharacter c before.length) := by
  obtain ⟨⟨tokens, hspells⟩, hmeets, -, hstray⟩ := halts_iff.mp hhalts
  rw [scan, hspells.scanFrom_append hmeets, scanFrom_stray hstray, Nat.zero_add]
  rfl

theorem scan_eq_error_iff {text : List Char} {error : SyntaxError} :
    scan false text = .error error ↔
      ∃ before c after, text = before ++ c :: after ∧ Halts before (c :: after) ∧
        error = .unexpectedCharacter c before.length := by
  constructor
  · intro hscan
    obtain ⟨before, after, tokens, rfl, hspells, hmeets, hend⟩ := exists_spells_append 0 text
    cases after with
    | nil =>
        rw [List.append_nil, scan, hspells.scanFrom_eq] at hscan
        contradiction
    | cons c after =>
        have hhalts : Halts before (c :: after) :=
          halts_iff.mpr ⟨⟨tokens, hspells⟩, hmeets, List.cons_ne_nil c after,
            hend.resolve_left (List.cons_ne_nil c after)⟩
        refine ⟨before, c, after, rfl, hhalts, ?_⟩
        exact Except.error.inj (hscan.symm.trans hhalts.scan_eq)
  · rintro ⟨before, c, after, rfl, hhalts, rfl⟩
    exact hhalts.scan_eq

section Steps

variable {kind : TokenKind} {word rest before after : List Char}

theorem Spells.at_position {position : Nat} {text : List Char} {tokens : List Token}
    (hspells : Spells position text tokens) (position' : Nat) :
    ∃ tokens', Spells position' text tokens' := by
  induction hspells generalizing position' with
  | done => exact ⟨[], .done⟩
  | blank hblank _ ih =>
      obtain ⟨tokens', hrest⟩ := ih (position' + 1)
      exact ⟨tokens', .blank hblank hrest⟩
  | @token _ _ word _ _ hword hstops _ ih =>
      obtain ⟨tokens', hrest⟩ := ih (position' + word.length)
      exact ⟨_, .token hword hstops hrest⟩

theorem IsLexeme.isBlank_head {text : List Char} {c : Char} (hword : IsLexeme kind word)
    (htext : word ++ rest = c :: text) : isBlank c = false := by
  cases word with
  | nil => exact absurd rfl hword.ne_nil
  | cons d word =>
      obtain ⟨rfl, -⟩ := List.cons.inj htext
      exact hword.isBlank_eq_false List.mem_cons_self

theorem halts_cons_blank {c : Char} (hblank : isBlank c = true) :
    Halts (c :: before) after ↔ Halts before after := by
  rw [halts_iff, halts_iff]
  constructor
  · rintro ⟨⟨tokens, hspells⟩, hmeets, hrest⟩
    refine ⟨?_, hmeets.tail, hrest⟩
    generalize htext : c :: before = text at hspells
    cases hspells with
    | done => contradiction
    | blank _ hbefore =>
        obtain ⟨rfl, rfl⟩ := List.cons.inj htext
        exact hbefore.at_position 0
    | token hword =>
        rw [hword.isBlank_head htext.symm] at hblank
        contradiction
  · rintro ⟨⟨tokens, hspells⟩, hmeets, hrest⟩
    obtain ⟨tokens', hspells'⟩ := hspells.at_position 1
    exact ⟨⟨tokens', .blank hblank hspells'⟩, hmeets.cons_blank hblank, hrest⟩

theorem Spells.exists_append_token {position : Nat} {stretch : List Char} {tokens : List Token}
    (hword : IsLexeme kind word) (hstops : StopsBefore kind rest)
    (htext : stretch ++ after = word ++ rest) (hsome : stretch ≠ [])
    (hspells : Spells position stretch tokens) (hmeets : Meets stretch after) :
    ∃ before tokens', stretch = word ++ before ∧
      Spells (position + word.length) before tokens' ∧ Meets before after := by
  cases hspells with
  | done => contradiction
  | blank hblank _ =>
      rw [hword.isBlank_head htext.symm] at hblank
      contradiction
  | @token _ kind' word' before tokens' hword' hstops' hbefore =>
      have hlexeme := hword'.lexeme?_append (hstops'.append hword' hmeets)
      rw [← List.append_assoc, htext, hword.lexeme?_append hstops] at hlexeme
      obtain ⟨rfl, rfl⟩ := Prod.mk.inj (Option.some.inj hlexeme)
      exact ⟨before, tokens', rfl, hbefore, hmeets.of_append⟩

theorem halts_append_token (hword : IsLexeme kind word)
    (hstops : StopsBefore kind (before ++ after)) :
    Halts (word ++ before) after ↔ Halts before after := by
  rw [halts_iff, halts_iff]
  constructor
  · rintro ⟨⟨tokens, hspells⟩, hmeets, hrest⟩
    obtain ⟨before', tokens', heq, hspells', hmeets'⟩ :=
      hspells.exists_append_token hword hstops (List.append_assoc _ _ _)
        (List.append_ne_nil_of_left_ne_nil hword.ne_nil _) hmeets
    obtain rfl := List.append_cancel_left heq
    exact ⟨hspells'.at_position 0, hmeets', hrest⟩
  · rintro ⟨⟨tokens, hspells⟩, hmeets, hrest⟩
    obtain ⟨tokens', hspells'⟩ := hspells.at_position (0 + word.length)
    exact ⟨⟨_, .token hword hstops.of_append hspells'⟩, hmeets.append_left hword hstops, hrest⟩

theorem not_halts_within {i : Nat} (hword : IsLexeme kind word) (hstops : StopsBefore kind rest)
    (hi : i < word.length) : ¬ Halts (word.take i) (word.drop i ++ rest) := by
  rw [halts_iff]
  rintro ⟨⟨tokens, hspells⟩, hmeets, -, hstray⟩
  by_cases hzero : i = 0
  · subst hzero
    exact hstray.2 kind word hword (List.prefix_append word rest)
  · have hsome : word.take i ≠ [] := by
      rw [Ne, List.take_eq_nil_iff]
      exact not_or.mpr ⟨hzero, hword.ne_nil⟩
    have htext : word.take i ++ (word.drop i ++ rest) = word ++ rest := by
      rw [← List.append_assoc, List.take_append_drop]
    obtain ⟨before, -, heq, -, -⟩ := hspells.exists_append_token hword hstops htext hsome hmeets
    have hlength := congrArg List.length heq
    rw [List.length_take, List.length_append] at hlength
    omega

end Steps

/-- The second text is the first with a blank for each character at which a scan stops that finds
blanks in place of the earlier ones. -/
structure IsMended (text mended : List Char) : Prop where
  length_eq : mended.length = text.length
  stray : ∀ i, Halts (mended.take i) (text.drop i) → mended[i]? = some ' '
  kept : ∀ i, ¬ Halts (mended.take i) (text.drop i) → mended[i]? = text[i]?

namespace IsMended

variable {rest mended : List Char}

theorem nil : IsMended [] [] where
  length_eq := rfl
  stray := by
    intro i hhalts
    rw [List.drop_nil] at hhalts
    exact absurd rfl hhalts.2.1
  kept := fun _ _ => rfl

theorem cons_blank {c : Char} (hblank : isBlank c = true) (hmended : IsMended rest mended) :
    IsMended (c :: rest) (c :: mended) where
  length_eq := congrArg (· + 1) hmended.length_eq
  stray := by
    rintro (_ | i) hhalts
    · rw [hhalts.2.2.1 c rfl] at hblank
      contradiction
    · exact hmended.stray i ((halts_cons_blank hblank).mp hhalts)
  kept := by
    rintro (_ | i) hpasses
    · rfl
    · exact hmended.kept i fun hhalts => hpasses ((halts_cons_blank hblank).mpr hhalts)

theorem cons_stray {c : Char} (hstray : StartsNothing (c :: rest))
    (hmended : IsMended rest mended) : IsMended (c :: rest) (' ' :: mended) where
  length_eq := congrArg (· + 1) hmended.length_eq
  stray := by
    rintro (_ | i) hhalts
    · rfl
    · exact hmended.stray i ((halts_cons_blank (by decide)).mp hhalts)
  kept := by
    rintro (_ | i) hpasses
    · refine absurd (halts_iff.mpr ⟨⟨[], .done⟩, meets_nil_left _, ?_, hstray⟩) hpasses
      exact List.cons_ne_nil c rest
    · exact hmended.kept i fun hhalts => hpasses ((halts_cons_blank (by decide)).mpr hhalts)

theorem separates (hmended : IsMended rest mended) (hseparates : Separates rest) (i : Nat) :
    Separates (mended.take i ++ rest.drop i) := by
  cases i with
  | zero => exact hseparates
  | succ i =>
      cases mended with
      | nil =>
          obtain rfl := List.length_eq_zero_iff.mp hmended.length_eq.symm
          exact hseparates
      | cons c mended =>
          refine separates_cons ?_ _
          by_cases hhalts : Halts [] rest
          · obtain rfl : c = ' ' := Option.some.inj (hmended.stray 0 hhalts)
            decide
          · refine hseparates c ?_
            have hkept := hmended.kept 0 hhalts
            rw [Option.mem_def, List.head?_eq_getElem?, ← hkept]
            rfl

theorem stopsBefore {kind : TokenKind} (hmended : IsMended rest mended)
    (hstops : StopsBefore kind rest) (i : Nat) :
    StopsBefore kind (mended.take i ++ rest.drop i) :=
  fun hkind => hmended.separates (hstops hkind) i

theorem halts_past_token {kind : TokenKind} {word : List Char} (hword : IsLexeme kind word)
    (hstops : StopsBefore kind rest) (hmended : IsMended rest mended) (i : Nat) :
    Halts ((word ++ mended).take (word.length + i)) ((word ++ rest).drop (word.length + i)) ↔
      Halts (mended.take i) (rest.drop i) := by
  rw [List.take_length_add_append, List.drop_length_add_append]
  exact halts_append_token hword (hmended.stopsBefore hstops i)

theorem append_token {kind : TokenKind} {word : List Char} (hword : IsLexeme kind word)
    (hstops : StopsBefore kind rest) (hmended : IsMended rest mended) :
    IsMended (word ++ rest) (word ++ mended) where
  length_eq := by rw [List.length_append, List.length_append, hmended.length_eq]
  stray := by
    intro i hhalts
    by_cases hi : i < word.length
    · rw [List.take_append_of_le_length (Nat.le_of_lt hi),
        List.drop_append_of_le_length (Nat.le_of_lt hi)] at hhalts
      exact absurd hhalts (not_halts_within hword hstops hi)
    · obtain ⟨j, rfl⟩ := Nat.exists_eq_add_of_le (Nat.le_of_not_lt hi)
      rw [List.getElem?_append_right (Nat.le_add_right _ _), Nat.add_sub_cancel_left]
      exact hmended.stray j ((halts_past_token hword hstops hmended j).mp hhalts)
  kept := by
    intro i hpasses
    by_cases hi : i < word.length
    · rw [List.getElem?_append_left hi, List.getElem?_append_left hi]
    · obtain ⟨j, rfl⟩ := Nat.exists_eq_add_of_le (Nat.le_of_not_lt hi)
      rw [List.getElem?_append_right (Nat.le_add_right _ _), Nat.add_sub_cancel_left,
        List.getElem?_append_right (Nat.le_add_right _ _), Nat.add_sub_cancel_left]
      exact hmended.kept j fun hhalts =>
        hpasses ((halts_past_token hword hstops hmended j).mpr hhalts)

/-- The places to be mended are found one after the other, so there is one way to do it. -/
theorem unique {text other : List Char} (hmended : IsMended text mended)
    (hother : IsMended text other) : other = mended := by
  have htake : ∀ n, other.take n = mended.take n := by
    intro n
    induction n with
    | zero => rw [List.take_zero, List.take_zero]
    | succ n ih =>
        rw [List.take_add_one, List.take_add_one, ih]
        congr 2
        by_cases hhalts : Halts (mended.take n) (text.drop n)
        · rw [hmended.stray n hhalts]
          rw [← ih] at hhalts
          exact hother.stray n hhalts
        · rw [hmended.kept n hhalts]
          rw [← ih] at hhalts
          exact hother.kept n hhalts
  have hall := htake text.length
  rwa [List.take_of_length_le (Nat.le_of_eq hother.length_eq),
    List.take_of_length_le (Nat.le_of_eq hmended.length_eq)] at hall

end IsMended

/-- A lenient scan finds the tokens of the mended text, and there are always some to find. -/
theorem exists_isMended (text : List Char) :
    ∃ mended, IsMended text mended ∧ ∀ position, ∃ tokens,
      scanFrom true position 0 text = .ok tokens ∧ Spells position mended tokens := by
  induction text using scanInduction with
  | nil => exact ⟨[], .nil, fun _ => ⟨[], rfl, .done⟩⟩
  | blank c rest hblank ih =>
      obtain ⟨mended, hmended, hscans⟩ := ih
      refine ⟨c :: mended, hmended.cons_blank hblank, ?_⟩
      intro position
      obtain ⟨tokens, hscan, hspells⟩ := hscans (position + 1)
      exact ⟨tokens, by rw [scanFrom_blank hblank, hscan], .blank hblank hspells⟩
  | token kind word rest hword hstops ih =>
      obtain ⟨mended, hmended, hscans⟩ := ih
      refine ⟨word ++ mended, hmended.append_token hword hstops, ?_⟩
      intro position
      obtain ⟨tokens, hscan, hspells⟩ := hscans (position + word.length)
      have hstops' := hmended.stopsBefore hstops rest.length
      rw [← hmended.length_eq, List.take_length] at hstops'
      refine ⟨_, ?_, .token hword hstops'.of_append hspells⟩
      rw [scanFrom_token hword hstops, hscan]
      rfl
  | stray c rest hstray ih =>
      obtain ⟨mended, hmended, hscans⟩ := ih
      refine ⟨' ' :: mended, hmended.cons_stray hstray, ?_⟩
      intro position
      obtain ⟨tokens, hscan, hspells⟩ := hscans (position + 1)
      refine ⟨tokens, ?_, .blank (by decide) hspells⟩
      rw [scanFrom_stray hstray, if_pos rfl, hscan]

theorem isSpelled_of_scan {lenient : Bool} {text : List Char} {tokens : List Token}
    (hscan : scan lenient text = .ok tokens) : ∀ token ∈ tokens, token.IsSpelled := by
  cases lenient with
  | false => exact (scanFrom_eq_ok_iff_spells.mp hscan).isSpelled
  | true =>
      obtain ⟨mended, -, hscans⟩ := exists_isMended text
      obtain ⟨words, hwords, hspells⟩ := hscans 0
      obtain rfl := Except.ok.inj (hwords.symm.trans hscan)
      exact hspells.isSpelled

section Joining

/-- The texts of tokens with one blank between any two of them. -/
def joined (tokens : List Token) : List Char :=
  List.intercalate [' '] (tokens.map fun token => token.text.toList)

/-- What a token is apart from its place. -/
def outline (token : Token) : TokenKind × String :=
  (token.kind, token.text)

theorem joined_cons_cons (token next : Token) (tokens : List Token) :
    joined (token :: next :: tokens) = token.text.toList ++ ' ' :: joined (next :: tokens) := by
  simp [joined, List.intercalate]

theorem joined_singleton (token : Token) : joined [token] = token.text.toList := by
  simp [joined, List.intercalate]

theorem exists_spells_joined {tokens : List Token} (hspelled : ∀ token ∈ tokens, token.IsSpelled)
    (position : Nat) :
    ∃ again, Spells position (joined tokens) again ∧ again.map outline = tokens.map outline := by
  induction tokens generalizing position with
  | nil => exact ⟨[], .done, rfl⟩
  | cons token tokens ih =>
      rw [List.forall_mem_cons] at hspelled
      have hmoved : IsSpelled { token with position } := hspelled.1
      cases tokens with
      | nil =>
          rw [joined_singleton]
          have hspells := hmoved.spells (fun _ => separates_nil) .done
          rw [List.append_nil] at hspells
          exact ⟨[{ token with position }], hspells, rfl⟩
      | cons next tokens =>
          obtain ⟨again, hrest, houtline⟩ := ih hspelled.2 (stop { token with position } + 1)
          rw [joined_cons_cons]
          refine ⟨{ token with position } :: again, hmoved.spells ?_ (.blank (by decide) hrest), ?_⟩
          · exact fun _ => separates_cons (by decide) _
          · rw [List.map_cons, houtline]
            rfl

theorem Spells.append_blank {position : Nat} {text : List Char} {tokens : List Token} {c : Char}
    (hspells : Spells position text tokens) (hblank : isBlank c = true) :
    Spells position (text ++ [c]) tokens := by
  have hseparates : Separates [c] := by
    refine separates_cons ?_ []
    rw [Bool.eq_false_iff]
    intro hword
    rw [isBlank_of_isWordChar hword] at hblank
    contradiction
  induction hspells with
  | done => exact .blank hblank .done
  | blank hfirst _ ih => exact .blank hfirst ih
  | token hword hstops _ ih =>
      rw [List.append_assoc]
      exact .token hword (hstops.append hword fun _ => hseparates) ih

theorem joined_concat_ending {tokens : List Token} (hsome : tokens ≠ []) (text : List Char) :
    joined (tokens ++ [ending text]) = joined tokens ++ [' '] := by
  induction tokens with
  | nil => contradiction
  | cons token tokens ih =>
      cases tokens with
      | nil =>
          rw [List.singleton_append, joined_cons_cons, joined_singleton, joined_singleton]
          rfl
      | cons next tokens =>
          have hrest := ih (List.cons_ne_nil next tokens)
          rw [List.cons_append] at hrest
          rw [List.cons_append, List.cons_append, joined_cons_cons, joined_cons_cons, hrest,
            List.append_assoc, List.cons_append]

/-- Tokens that were found are found again between single blanks, with the end among them or
without it. -/
theorem exists_scan_joined {words : List Token} (hspelled : ∀ token ∈ words, token.IsSpelled)
    (text : List Char) {values : List Token} (hvalues : values ∈ [words, words ++ [ending text]]) :
    ∃ again, scan false (joined values) = .ok again ∧
      again.map outline = words.map outline := by
  obtain ⟨again, hspells, houtline⟩ := exists_spells_joined hspelled 0
  rcases List.mem_pair.mp hvalues with rfl | rfl
  · exact ⟨again, hspells.scanFrom_eq, houtline⟩
  · by_cases hsome : words = []
    · subst hsome
      exact ⟨[], rfl, rfl⟩
    · rw [joined_concat_ending hsome]
      exact ⟨again, (hspells.append_blank (by decide)).scanFrom_eq, houtline⟩

end Joining

section Ends

variable {lenient : Bool} {text : List Char}

theorem scanToEnd_eq_ok_iff {tokens : List Token} :
    scanToEnd lenient text = .ok tokens ↔
      ∃ words, tokens = words ++ [ending text] ∧ scan lenient text = .ok words := by
  rw [scanToEnd]
  cases scan lenient text with
  | ok words =>
      constructor
      · intro heq
        exact ⟨words, (Except.ok.inj heq).symm, rfl⟩
      · rintro ⟨words', rfl, heq⟩
        rw [Except.ok.inj heq]
  | error error => simp

theorem scanToEnd_eq_error_iff {error : SyntaxError} :
    scanToEnd lenient text = .error error ↔ scan lenient text = .error error := by
  rw [scanToEnd]
  cases scan lenient text with
  | ok words => simp
  | error error => rfl

theorem scan_eq_ok_iff_covers {words : List Token} :
    scan false text = .ok words ↔ Covers text 0 text.length words := by
  rw [covers_iff_spells_all, scan, scanFrom_eq_ok_iff_spells]

theorem Covers.increasing_to_end {words : List Token} (hcovers : Covers text 0 text.length words) :
    (words ++ [ending text]).Pairwise fun token next => token.position < next.position := by
  refine List.pairwise_append.mpr ⟨hcovers.increasing, List.pairwise_singleton _ _, ?_⟩
  intro token htoken next hnext
  obtain rfl := List.mem_singleton.mp hnext
  have hwithin := (hcovers.within token htoken).2
  have hlength := (hcovers.spelled token htoken).position_lt_stop
  exact Nat.lt_of_lt_of_le hlength hwithin

end Ends

/-- A strict scan gives the tokens that cover the text and the end of the text after them. Their
positions grow, and their texts between single blanks scan to tokens of the same kinds and texts. It
fails only at the first place that covering tokens lead to and where nothing begins. A lenient scan
never fails: it gives the tokens of the text with blanks in those places. -/
theorem scanToEnd_isLossless (text : List Char) :
    (∀ tokens, scanToEnd false text = .ok tokens ↔
      ∃ words, tokens = words ++ [ending text] ∧ Covers text 0 text.length words) ∧
    (∀ words, scanToEnd false text = .ok (words ++ [ending text]) →
      (words ++ [ending text]).Pairwise (fun token next => token.position < next.position) ∧
      ∀ values ∈ [words, words ++ [ending text]], ∃ again,
        scanToEnd false (joined values) = .ok again ∧
          again.map outline = (words ++ [ending text]).map outline) ∧
    (∀ error, scanToEnd false text = .error error ↔
      ∃ before c after, text = before ++ c :: after ∧ Halts before (c :: after) ∧
        error = .unexpectedCharacter c before.length ∧
        ∀ before' after', text = before' ++ after' → Halts before' after' →
          before.length ≤ before'.length) ∧
    ∃ mended tokens, (∀ other, IsMended text other ↔ other = mended) ∧
      scanToEnd true text = .ok tokens ∧ scanToEnd false mended = .ok tokens := by
  refine ⟨?_, ?_, ?_, ?_⟩
  · intro tokens
    simp only [scanToEnd_eq_ok_iff, scan_eq_ok_iff_covers]
  · intro words hscan
    obtain ⟨words', heq, hscan⟩ := scanToEnd_eq_ok_iff.mp hscan
    obtain rfl := List.append_cancel_right heq
    have hcovers := scan_eq_ok_iff_covers.mp hscan
    refine ⟨hcovers.increasing_to_end, ?_⟩
    intro values hvalues
    obtain ⟨again, hagain, houtline⟩ := exists_scan_joined hcovers.spelled text hvalues
    refine ⟨again ++ [ending (joined values)], scanToEnd_eq_ok_iff.mpr ⟨again, rfl, hagain⟩, ?_⟩
    rw [List.map_append, List.map_append, houtline]
    rfl
  · intro error
    rw [scanToEnd_eq_error_iff, scan_eq_error_iff]
    constructor
    · rintro ⟨before, c, after, htext, hhalts, herror⟩
      refine ⟨before, c, after, htext, hhalts, herror, ?_⟩
      -- Two places where a scan stops are those of one error.
      rintro before' (_ | ⟨d, after'⟩) htext' hhalts'
      · exact absurd rfl hhalts'.2.1
      · have hfirst := hhalts.scan_eq
        rw [← htext, htext', hhalts'.scan_eq] at hfirst
        have hplace := SyntaxError.unexpectedCharacter.inj (Except.error.inj hfirst)
        exact Nat.le_of_eq hplace.2.symm
    · rintro ⟨before, c, after, htext, hhalts, herror, -⟩
      exact ⟨before, c, after, htext, hhalts, herror⟩
  · obtain ⟨mended, hmended, hscans⟩ := exists_isMended text
    obtain ⟨words, hscan, hspells⟩ := hscans 0
    have honly : ∀ other, IsMended text other ↔ other = mended :=
      fun other => ⟨hmended.unique, fun heq => heq ▸ hmended⟩
    refine ⟨mended, words ++ [ending text], honly, scanToEnd_eq_ok_iff.mpr ⟨words, rfl, hscan⟩,
      scanToEnd_eq_ok_iff.mpr ⟨words, ?_, hspells.scanFrom_eq⟩⟩
    rw [ending, ending, hmended.length_eq]

theorem arrow_after_name_isLossless :
    scanToEnd false "p1<->v".toList =
        .ok ([⟨.identifier, "p1", 0⟩, ⟨.equivalence, "<->", 2⟩, ⟨.disjunction, "v", 5⟩] ++
          [ending "p1<->v".toList]) ∧
      ∃ again, scanToEnd false "p1 <-> v".toList = .ok again ∧
        again.map outline =
          [(.identifier, "p1"), (.equivalence, "<->"), (.disjunction, "v"), (.finish, "")] := by
  have hscan : scanToEnd false "p1<->v".toList =
      .ok ([⟨.identifier, "p1", 0⟩, ⟨.equivalence, "<->", 2⟩, ⟨.disjunction, "v", 5⟩] ++
        [ending "p1<->v".toList]) := by rfl
  obtain ⟨-, hjoins, -, -⟩ := scanToEnd_isLossless "p1<->v".toList
  exact ⟨hscan, (hjoins _ hscan).2 _ List.mem_cons_self⟩

example : scanToEnd true "A<<->".toList =
    .ok [⟨.identifier, "A", 0⟩, ⟨.equivalence, "<->", 2⟩, ending "A<<->".toList] := by rfl

end Deduction.Token
