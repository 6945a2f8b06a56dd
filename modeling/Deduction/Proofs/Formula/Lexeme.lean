import Deduction.Formula.Spelling
import Deduction.Proofs.Formula.Scanning
import Deduction.Proofs.Text.Replace

namespace Deduction.Token

open Text

/-- What a kind of tokens is written with; a name may be any word. -/
def sign? : TokenKind → Option (List Char)
  | .negation => some ['!']
  | .conjunction => some ['^']
  | .disjunction => some ['v']
  | .implication => some ['-', '>']
  | .equivalence => some ['<', '-', '>']
  | .openParen => some ['(']
  | .closeParen => some [')']
  | .comma => some [',']
  | .identifier => none
  | .finish => none

/-- The texts of the tokens of each kind. -/
inductive IsLexeme : TokenKind → List Char → Prop
  | sign {kind : TokenKind} {word : List Char} (hsign : sign? kind = some word) :
      IsLexeme kind word
  | identifier {first : Char} {rest : List Char} (hletter : isLetter first = true)
      (hword : ∀ c ∈ rest, isWordChar c = true) (hother : first :: rest ≠ ['v']) :
      IsLexeme .identifier (first :: rest)

theorem IsLexeme.eq_sign {kind : TokenKind} {word sign : List Char} (hword : IsLexeme kind word)
    (hsign : sign? kind = some sign) : word = sign := by
  cases hword with
  | sign hword => exact Option.some.inj (hword.symm.trans hsign)
  | identifier => contradiction

/-- A token that is a word ends before these characters. -/
def StopsBefore (kind : TokenKind) (rest : List Char) : Prop :=
  kind = .identifier ∨ kind = .disjunction → Separates rest

theorem separates_dropWhile (text : List Char) : Separates (text.dropWhile isWordChar) := by
  intro c hc
  have hstops := List.head?_dropWhile_not isWordChar text
  rw [Option.mem_def.mp hc] at hstops
  simpa using hstops

theorem Separates.of_append {first second : List Char} (hseparates : Separates (first ++ second)) :
    Separates first := by
  cases first with
  | nil => exact separates_nil
  | cons c first => exact separates_cons (hseparates c rfl) first

theorem identifier?_eq_some {text word rest : List Char}
    (hidentifier : identifier? text = some (word, rest)) :
    text = word ++ rest ∧ Separates rest ∧
      ∃ first tail, word = first :: tail ∧ isLetter first = true ∧
        ∀ c ∈ tail, isWordChar c = true := by
  cases text with
  | nil => contradiction
  | cons c tail =>
      rw [identifier?] at hidentifier
      split at hidentifier
      · rename_i hletter
        obtain ⟨rfl, rfl⟩ := Prod.mk.inj (Option.some.inj hidentifier)
        refine ⟨?_, separates_dropWhile tail, c, _, rfl, hletter,
          List.all_eq_true.mp List.all_takeWhile⟩
        rw [List.cons_append, List.takeWhile_append_dropWhile]
      · contradiction

theorem isLexeme_of_lexeme? {text word : List Char} {kind : TokenKind}
    (hlexeme : lexeme? text = some (kind, word)) :
    IsLexeme kind word ∧ ∃ rest, text = word ++ rest ∧ StopsBefore kind rest := by
  unfold lexeme? at hlexeme
  split at hlexeme
  case h_8 =>
    -- No mark is at the head, so a word is, and one word is a sign.
    split at hlexeme
    · rename_i hidentifier
      obtain ⟨rfl, hseparates, first, tail, rfl, hletter, hword⟩ := identifier?_eq_some hidentifier
      obtain ⟨rfl, rfl⟩ := Prod.mk.inj (Option.some.inj hlexeme)
      refine ⟨?_, _, rfl, fun _ => hseparates⟩
      split
      · rename_i hv
        rw [beq_iff_eq.mp hv]
        exact .sign rfl
      · rename_i hv
        exact .identifier hletter hword fun h => hv (beq_iff_eq.mpr h)
    · contradiction
  all_goals
    obtain ⟨rfl, rfl⟩ := Prod.mk.inj (Option.some.inj hlexeme)
    refine ⟨.sign rfl, _, rfl, ?_⟩
    rintro (hkind | hkind) <;> contradiction

theorem IsLexeme.lexeme?_append {kind : TokenKind} {word rest : List Char}
    (hword : IsLexeme kind word) (hstops : StopsBefore kind rest) :
    lexeme? (word ++ rest) = some (kind, word) := by
  cases hword with
  | sign hsign =>
      cases kind with
      | identifier => contradiction
      | finish => contradiction
      | disjunction =>
          obtain rfl := Option.some.inj hsign
          have htake := (hstops (Or.inr rfl)).takeWhile_eq_nil
          rw [List.singleton_append, lexeme?_letter (by decide), htake]
          rfl
      | _ =>
          obtain rfl := Option.some.inj hsign
          rfl
  | @identifier first tail hletter hword hother =>
      have htake : (tail ++ rest).takeWhile isWordChar = tail := by
        rw [List.takeWhile_append_of_pos hword, (hstops (Or.inl rfl)).takeWhile_eq_nil,
          List.append_nil]
      rw [List.cons_append, lexeme?_letter hletter, htake, if_neg (by simpa using hother)]

theorem IsLexeme.ne_nil {kind : TokenKind} {word : List Char} (hword : IsLexeme kind word) :
    word ≠ [] := by
  cases hword with
  | sign hsign =>
      rintro rfl
      cases kind <;> contradiction
  | identifier => exact List.cons_ne_nil _ _

/-- The characters of the signs that are no words. -/
def marks : List Char :=
  ['!', '^', '<', '-', '>', '(', ')', ',']

/-- The characters of the plain alphabet. -/
def isPlain (c : Char) : Bool :=
  isBlank c || isWordChar c || marks.contains c

theorem IsLexeme.forall_isWordChar {word : List Char} (hword : IsLexeme .identifier word) :
    ∀ c ∈ word, isWordChar c = true := by
  cases hword with
  | sign hsign => contradiction
  | identifier hletter hword =>
      intro c hc
      rcases List.mem_cons.mp hc with rfl | hc
      · exact isWordChar_of_isLetter hletter
      · exact hword c hc

theorem IsLexeme.isWordChar_or_mem {kind : TokenKind} {word : List Char}
    (hword : IsLexeme kind word) :
    (∀ c ∈ word, isWordChar c = true) ∨ ∀ c ∈ word, c ∈ marks := by
  cases hword with
  | sign hsign =>
      cases kind with
      | identifier => contradiction
      | finish => contradiction
      | disjunction =>
          obtain rfl := Option.some.inj hsign
          exact Or.inl (List.all_eq_true.mp (by decide))
      | _ =>
          obtain rfl := Option.some.inj hsign
          exact Or.inr (by simp [marks])
  | identifier hletter hword hother =>
      exact Or.inl (IsLexeme.identifier hletter hword hother).forall_isWordChar

theorem IsLexeme.isBlank_eq_false {kind : TokenKind} {word : List Char}
    (hword : IsLexeme kind word) {c : Char} (hc : c ∈ word) : isBlank c = false := by
  rcases hword.isWordChar_or_mem with hword | hmarks
  · exact isBlank_of_isWordChar (hword c hc)
  · have hall : (marks.all fun c => !isBlank c) = true := by decide
    simpa using List.all_eq_true.mp hall c (hmarks c hc)

theorem IsLexeme.isPlain {kind : TokenKind} {word : List Char} (hword : IsLexeme kind word)
    {c : Char} (hc : c ∈ word) : isPlain c = true := by
  rcases hword.isWordChar_or_mem with hword | hmarks
  · simp [Token.isPlain, hword c hc]
  · have hmark := hmarks c hc
    simp only [Token.isPlain, List.contains_iff_mem.mpr hmark, Bool.or_true]

/-- The spellings have characters outside the plain alphabet, so nothing in it is replaced. -/
theorem respell_of_isPlain {text : List Char} (hplain : ∀ c ∈ text, isPlain c = true) :
    Formula.respell text = text := by
  have htable : (Formula.spellings.all fun entry => entry.1.any fun c => !isPlain c) = true := by
    decide
  exact replaceEach_of_test htable hplain

/-- A text from a position on spells tokens: their texts in order, with blanks between them at least
where a word would go on. -/
inductive Spells : Nat → List Char → List Token → Prop
  | done {position : Nat} : Spells position [] []
  | blank {position : Nat} {c : Char} {rest : List Char} {tokens : List Token}
      (hblank : isBlank c = true) (hrest : Spells (position + 1) rest tokens) :
      Spells position (c :: rest) tokens
  | token {position : Nat} {kind : TokenKind} {word rest : List Char} {tokens : List Token}
      (hword : IsLexeme kind word) (hstops : StopsBefore kind rest)
      (hrest : Spells (position + word.length) rest tokens) :
      Spells position (word ++ rest)
        ({ kind, text := String.ofList word, position } :: tokens)

theorem spells_of_scanFrom {position skip : Nat} {text : List Char} {tokens : List Token}
    (hscan : scanFrom false position skip text = .ok tokens) :
    Spells (position + skip) (text.drop skip) tokens := by
  induction text generalizing position skip tokens with
  | nil =>
      rw [scanFrom] at hscan
      obtain rfl := Except.ok.inj hscan
      rw [List.drop_nil]
      exact .done
  | cons c rest ih =>
      cases skip with
      | succ skip =>
          rw [List.drop_succ_cons, Nat.add_comm skip 1, ← Nat.add_assoc]
          exact ih hscan
      | zero =>
          rw [scanFrom] at hscan
          split at hscan
          · rename_i hblank
            exact .blank hblank (ih hscan)
          · split at hscan
            · rename_i kind word hlexeme
              obtain ⟨hword, rest', htext, hstops⟩ := isLexeme_of_lexeme? hlexeme
              split at hscan
              · rename_i tokens' hrest
                obtain rfl := Except.ok.inj hscan
                cases word with
                | nil => exact absurd rfl hword.ne_nil
                | cons first word =>
                    rw [List.cons_append] at htext
                    obtain ⟨rfl, rfl⟩ := List.cons.inj htext
                    have hspells := ih hrest
                    rw [List.length_cons, Nat.add_sub_cancel, List.drop_left, Nat.add_assoc,
                      Nat.add_comm 1] at hspells
                    exact .token hword hstops hspells
              · contradiction
            · contradiction

theorem Spells.scanFrom_eq {position : Nat} {text : List Char} {tokens : List Token}
    (hspells : Spells position text tokens) : scanFrom false position 0 text = .ok tokens := by
  induction hspells with
  | done => rw [scanFrom]
  | blank hblank _ ih => rw [scanFrom_blank hblank, ih]
  | @token position kind word rest tokens hword hstops _ ih =>
      have hlexeme := hword.lexeme?_append hstops
      cases word with
      | nil => exact absurd rfl hword.ne_nil
      | cons first word =>
          exact scanFrom_lexeme (hword.isBlank_eq_false List.mem_cons_self) hlexeme ih

/-- A strict scan finds the tokens that a text spells. -/
theorem scanFrom_eq_ok_iff_spells {position : Nat} {text : List Char} {tokens : List Token} :
    scanFrom false position 0 text = .ok tokens ↔ Spells position text tokens :=
  ⟨spells_of_scanFrom, Spells.scanFrom_eq⟩

/-- The text of a token is one of its kind. -/
def IsSpelled (token : Token) : Prop :=
  IsLexeme token.kind token.text.toList

theorem IsSpelled.toList_eq {token : Token} {kind : TokenKind} {word : List Char}
    (hspelled : token.IsSpelled) (hkind : token.kind = kind) (hsign : sign? kind = some word) :
    token.text.toList = word := by
  subst hkind
  exact IsLexeme.eq_sign hspelled hsign

theorem IsSpelled.forall_isWordChar {token : Token} (hspelled : token.IsSpelled)
    (hname : token.kind = .identifier) : ∀ c ∈ token.text.toList, isWordChar c = true := by
  rw [IsSpelled, hname] at hspelled
  exact hspelled.forall_isWordChar

/-- The texts of tokens, one after the other. -/
def spelling (tokens : List Token) : List Char :=
  tokens.flatMap fun token => token.text.toList

theorem spelling_cons (token : Token) (tokens : List Token) :
    spelling (token :: tokens) = token.text.toList ++ spelling tokens :=
  List.flatMap_cons

theorem spelling_append (tokens tokens' : List Token) :
    spelling (tokens ++ tokens') = spelling tokens ++ spelling tokens' :=
  List.flatMap_append

namespace Spells

variable {position : Nat} {text : List Char} {tokens tokens' : List Token}

theorem isSpelled (hspells : Spells position text tokens) :
    ∀ token ∈ tokens, token.IsSpelled := by
  induction hspells with
  | done => simp
  | blank _ _ ih => exact ih
  | token hword _ _ ih =>
      intro token htoken
      rcases List.mem_cons.mp htoken with rfl | htoken
      · rwa [IsSpelled, String.toList_ofList]
      · exact ih token htoken

theorem removeBlanks_eq (hspells : Spells position text tokens) :
    removeBlanks text = spelling tokens := by
  induction hspells with
  | done => rfl
  | blank hblank _ ih =>
      rw [← ih]
      simp [removeBlanks, hblank]
  | @token position kind word rest tokens hword hstops _ ih =>
      have hkept : removeBlanks word = word := by
        apply List.filter_eq_self.mpr
        intro c hc
        simp [hword.isBlank_eq_false hc]
      rw [spelling_cons, String.toList_ofList, ← ih, removeBlanks, List.filter_append]
      exact congrArg (· ++ removeBlanks rest) hkept

theorem blank_or_mem (hspells : Spells position text tokens) :
    ∀ c ∈ text, isBlank c = true ∨ ∃ token ∈ tokens, c ∈ token.text.toList := by
  induction hspells with
  | done => simp
  | blank hblank _ ih =>
      intro c hc
      rcases List.mem_cons.mp hc with rfl | hc
      · exact Or.inl hblank
      · exact ih c hc
  | token hword _ _ ih =>
      intro c hc
      rcases List.mem_append.mp hc with hc | hc
      · exact Or.inr ⟨_, List.mem_cons_self, by rwa [String.toList_ofList]⟩
      · rcases ih c hc with hblank | ⟨found, hfound, hmem⟩
        · exact Or.inl hblank
        · exact Or.inr ⟨found, List.mem_cons_of_mem _ hfound, hmem⟩

theorem respell_eq (hspells : Spells position text tokens) : Formula.respell text = text := by
  apply respell_of_isPlain
  intro c hc
  rcases hspells.blank_or_mem c hc with hblank | ⟨token, htoken, hmem⟩
  · simp [isPlain, hblank]
  · exact IsLexeme.isPlain (hspells.isSpelled token htoken) hmem

/-- A text is cut between the tokens that it spells, right before the second ones. -/
theorem exists_append (hspells : Spells position text (tokens ++ tokens')) :
    ∃ first second, text = first ++ second ∧ Spells position first tokens ∧
      Spells (position + first.length) second tokens' ∧ ∀ c ∈ second.head?, isBlank c = false := by
  generalize hall : tokens ++ tokens' = all at hspells
  induction hspells generalizing tokens with
  | done =>
      obtain ⟨rfl, rfl⟩ := List.append_eq_nil_iff.mp hall
      exact ⟨[], [], rfl, .done, .done, by simp⟩
  | @blank position c rest _ hblank _ ih =>
      -- Blanks at the cut go to the first piece.
      obtain ⟨first, second, rfl, hfirst, hsecond, hhead⟩ := ih hall
      refine ⟨c :: first, second, rfl, .blank hblank hfirst, ?_, hhead⟩
      rwa [List.length_cons, Nat.add_comm first.length, ← Nat.add_assoc]
  | @token position kind word rest _ hword hstops hrest ih =>
      cases tokens with
      | nil =>
          obtain rfl : tokens' = _ := hall
          refine ⟨[], word ++ rest, rfl, .done, .token hword hstops hrest, ?_⟩
          intro c hc
          rw [List.head?_append_of_ne_nil _ hword.ne_nil] at hc
          exact hword.isBlank_eq_false (List.mem_of_head? hc)
      | cons head tokens =>
          obtain ⟨rfl, htail⟩ := List.cons.inj hall
          obtain ⟨first, second, rfl, hfirst, hsecond, hhead⟩ := ih htail
          refine ⟨word ++ first, second, by rw [List.append_assoc],
            .token hword (fun hkind => (hstops hkind).of_append) hfirst, ?_, hhead⟩
          rwa [List.length_append, ← Nat.add_assoc]

theorem exists_append_cons {sign : Token}
    (hspells : Spells position text (tokens ++ sign :: tokens')) :
    ∃ first second, text = first ++ (sign.text.toList ++ second) ∧ Spells position first tokens ∧
      sign.position = position + first.length ∧
      Spells (sign.position + sign.text.toList.length) second tokens' := by
  obtain ⟨first, rest, rfl, hfirst, hrest, hhead⟩ := hspells.exists_append
  cases hrest with
  | blank hblank _ => simp [hblank] at hhead
  | @token _ kind word second _ hword _ hsecond =>
      rw [String.toList_ofList]
      exact ⟨first, second, rfl, hfirst, rfl, hsecond⟩

end Spells

/-- The token of a text that starts so much later. -/
def moveBack (offset : Nat) (token : Token) : Token :=
  { token with position := token.position - offset }

theorem Spells.moveBack {position offset : Nat} {text : List Char} {tokens : List Token}
    (hspells : Spells (position + offset) text tokens) :
    Spells position text (tokens.map (moveBack offset)) := by
  generalize hstart : position + offset = start at hspells
  induction hspells generalizing position with
  | done => exact .done
  | blank hblank _ ih => exact .blank hblank (ih (by omega))
  | token hword hstops _ ih =>
      subst hstart
      rw [List.map_cons, Token.moveBack, Nat.add_sub_cancel]
      exact .token hword hstops (ih (by omega))

end Deduction.Token
