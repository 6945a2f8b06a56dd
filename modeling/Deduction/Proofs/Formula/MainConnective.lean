import Deduction.Formula.Compact
import Deduction.Proofs.Formula.Leniency
import Deduction.Proofs.Formula.Lexeme
import Deduction.Proofs.Text.Split

/-!
The main connective of a text.

Without blanks and outer parentheses, the text of a formula is split at a sign outside parentheses.
Rank by rank, a formula has no sign of a weaker connective outside parentheses: the search for an
equivalence passes over whatever is read as an implication, and the search for an arrow over
whatever is read as a disjunction. So the split finds the sign at which the formula was put
together.
-/

namespace Deduction.Formula

open Text Token

/-- The first characters of the signs that are weaker than a rank. -/
def Rank.weaker : Rank → List Char
  | .equivalence => []
  | .implication => ['<']
  | _ => ['<', '-']

/-- The text of tokens of a rank: it is clear of the weaker signs and no sign of an equivalence is
at its ends. -/
structure ReadsAs (rank : Rank) (text : List Char) : Prop where
  isClear : IsClear rank.weaker text
  ne_nil : text ≠ []
  head?_ne : text.head? ≠ some '<'
  getLast?_ne : text.getLast? ≠ some '<'

theorem ReadsAs.mono {rank rank' : Rank} {text : List Char} (hreads : ReadsAs rank text)
    (hsubset : rank'.weaker ⊆ rank.weaker) : ReadsAs rank' text :=
  { hreads with isClear := hreads.isClear.mono hsubset }

theorem ReadsAs.join {rank : Rank} {text sign text' : List Char} (hleft : ReadsAs rank text)
    (hsign : ∀ c ∈ sign, c ∉ rank.weaker ∧ c ≠ '(' ∧ c ≠ ')') (hright : ReadsAs rank text') :
    ReadsAs rank (text ++ (sign ++ text')) where
  isClear := hleft.isClear.append ((IsClear.of_forall hsign).append hright.isClear)
  ne_nil := by simp [hleft.ne_nil]
  head?_ne := by
    rw [List.head?_append_of_ne_nil _ hleft.ne_nil]
    exact hleft.head?_ne
  getLast?_ne := by
    rw [← List.append_assoc, List.getLast?_append_of_ne_nil _ hright.ne_nil]
    exact hright.getLast?_ne

theorem ReadsAs.append {rank : Rank} {text text' : List Char} (hleft : ReadsAs rank text)
    (hright : ReadsAs rank text') : ReadsAs rank (text ++ text') :=
  hleft.join (List.forall_mem_nil _) hright

theorem isWordChar_ne_sign {c : Char} (hword : isWordChar c = true) :
    c ∉ ['<', '-'] ∧ c ≠ '(' ∧ c ≠ ')' := by
  refine ⟨?_, isWordChar_ne_paren hword⟩
  intro hc
  have hsigns : (['<', '-'].all fun c => !isWordChar c) = true := by decide
  simpa [hword] using List.all_eq_true.mp hsigns c hc

theorem readsAs_negationSign : ReadsAs .negation ['!'] where
  isClear := IsClear.of_forall (by simp [Rank.weaker])
  ne_nil := List.cons_ne_nil _ _
  head?_ne := by decide
  getLast?_ne := by decide

theorem readsAs_name {word : List Char} (hsome : word ≠ [])
    (hword : ∀ c ∈ word, isWordChar c = true) : ReadsAs .primary word where
  isClear := IsClear.of_forall fun c hc => isWordChar_ne_sign (hword c hc)
  ne_nil := hsome
  head?_ne hhead := (isWordChar_ne_sign (hword _ (List.mem_of_head? hhead))).1 (by decide)
  getLast?_ne hlast := (isWordChar_ne_sign (hword _ (List.mem_of_getLast? hlast))).1 (by decide)

theorem readsAs_parenthesized {text : List Char} (htext : Text.isBalanced text = true) :
    ReadsAs .primary ('(' :: (text ++ [')'])) where
  isClear := IsClear.parenthesized _ htext
  ne_nil := List.cons_ne_nil _ _
  head?_ne := by simp
  getLast?_ne := by simp [List.getLast?_cons]

theorem DerivesArguments.isBalanced {tokens : List Token} {names : List String}
    (hderives : DerivesArguments tokens names) (hspelled : ∀ token ∈ tokens, token.IsSpelled) :
    Text.isBalanced (spelling tokens) = true := by
  have hname : ∀ {token : Token}, token.IsSpelled → token.kind = .identifier →
      Text.isBalanced token.text.toList = true := fun htoken hkind =>
    isBalanced_of_no_parens fun c hc => isWordChar_ne_paren (htoken.forall_isWordChar hkind c hc)
  induction hderives with
  | @last token hkind =>
      rw [spelling_cons]
      exact isBalanced_append (hname (hspelled token List.mem_cons_self) hkind) rfl
  | @more token comma tokens names hkind hcomma _ ih =>
      simp only [List.forall_mem_cons] at hspelled
      obtain ⟨htoken, hspelledComma, hrest⟩ := hspelled
      rw [spelling_cons, spelling_cons, hspelledComma.toList_eq hcomma rfl]
      exact isBalanced_append (hname htoken hkind) (isBalanced_append rfl (ih hrest))

theorem spelling_pair {tokens tokens' : List Token} {sign : Token} {kind : TokenKind}
    {word : List Char} (hspelled : ∀ token ∈ tokens ++ sign :: tokens', token.IsSpelled)
    (hkind : sign.kind = kind) (hsign : sign? kind = some word) :
    spelling (tokens ++ sign :: tokens') = spelling tokens ++ (word ++ spelling tokens') := by
  have hspelledSign := hspelled sign (by simp)
  rw [spelling_append, spelling_cons, hspelledSign.toList_eq hkind hsign]

theorem spelling_parenthesized {opening closing : Token} {tokens : List Token}
    (hspelled : ∀ token ∈ opening :: (tokens ++ [closing]), token.IsSpelled)
    (hopening : opening.kind = .openParen) (hclosing : closing.kind = .closeParen) :
    spelling (opening :: (tokens ++ [closing])) = '(' :: (spelling tokens ++ [')']) := by
  have hspelledOpening := hspelled opening (by simp)
  have hspelledClosing := hspelled closing (by simp)
  rw [spelling_cons, spelling_append, spelling_cons, hspelledOpening.toList_eq hopening rfl,
    hspelledClosing.toList_eq hclosing rfl]
  rfl

theorem readsAs_pair {rank : Rank} {tokens tokens' : List Token} {sign : Token} {kind : TokenKind}
    {word : List Char} (hspelled : ∀ token ∈ tokens ++ sign :: tokens', token.IsSpelled)
    (hkind : sign.kind = kind) (hsign : sign? kind = some word)
    (hword : ∀ c ∈ word, c ∉ rank.weaker ∧ c ≠ '(' ∧ c ≠ ')')
    (hleft : (∀ token ∈ tokens, token.IsSpelled) → ReadsAs rank (spelling tokens))
    (hright : (∀ token ∈ tokens', token.IsSpelled) → ReadsAs rank (spelling tokens')) :
    ReadsAs rank (spelling (tokens ++ sign :: tokens')) := by
  obtain ⟨hspelledLeft, hspelledRest⟩ := List.forall_mem_append.mp hspelled
  obtain ⟨-, hspelledRight⟩ := List.forall_mem_cons.mp hspelledRest
  rw [spelling_pair hspelled hkind hsign]
  exact (hleft hspelledLeft).join hword (hright hspelledRight)

theorem Derives.readsAs {rank : Rank} {tokens : List Token} {formula : Formula}
    (hderives : Derives rank tokens formula) (hspelled : ∀ token ∈ tokens, token.IsSpelled) :
    ReadsAs rank (spelling tokens) := by
  -- On the way from a rank to a weaker one the text stays, and there are fewer weaker signs.
  induction hderives with
  | ofImplication _ ih => exact (ih hspelled).mono (by simp [Rank.weaker])
  | ofDisjunction _ ih => exact (ih hspelled).mono (by simp [Rank.weaker])
  | ofConjunction _ ih => exact (ih hspelled).mono (by simp [Rank.weaker])
  | ofNegation _ ih => exact (ih hspelled).mono (by simp [Rank.weaker])
  | ofPrimary _ ih => exact (ih hspelled).mono (by simp [Rank.weaker])
  | equivalence _ hsign _ ihleft ihright =>
      exact readsAs_pair hspelled hsign rfl (by simp [Rank.weaker]) ihleft
        fun hright => (ihright hright).mono (by simp [Rank.weaker])
  | implication _ hsign _ ihleft ihright =>
      exact readsAs_pair hspelled hsign rfl (by simp [Rank.weaker])
        (fun hleft => (ihleft hleft).mono (by simp [Rank.weaker])) ihright
  | disjunction _ hsign _ ihleft ihright =>
      exact readsAs_pair hspelled hsign rfl (by simp [Rank.weaker]) ihleft
        fun hright => (ihright hright).mono (by simp [Rank.weaker])
  | conjunction _ hsign _ ihleft ihright =>
      exact readsAs_pair hspelled hsign rfl (by simp [Rank.weaker]) ihleft
        fun hright => (ihright hright).mono (by simp [Rank.weaker])
  | negation hsign _ ih =>
      obtain ⟨hspelledSign, hoperand⟩ := List.forall_mem_cons.mp hspelled
      rw [spelling_cons, hspelledSign.toList_eq hsign rfl]
      exact readsAs_negationSign.append (ih hoperand)
  | @name token hname =>
      have htoken := hspelled token List.mem_cons_self
      rw [spelling_cons, spelling, List.flatMap_nil, List.append_nil]
      exact readsAs_name htoken.ne_nil (htoken.forall_isWordChar hname)
  | @application token _ _ _ _ hname _ hopening harguments hclosing =>
      obtain ⟨htoken, hrest⟩ := List.forall_mem_cons.mp hspelled
      have hspelledArguments := (List.forall_mem_append.mp (List.forall_mem_cons.mp hrest).2).1
      rw [spelling_cons, spelling_parenthesized hrest hopening hclosing]
      exact (readsAs_name htoken.ne_nil (htoken.forall_isWordChar hname)).append
        (readsAs_parenthesized (harguments.isBalanced hspelledArguments))
  | group hopening _ hclosing ih =>
      have hinner := (List.forall_mem_append.mp (List.forall_mem_cons.mp hspelled).2).1
      rw [spelling_parenthesized hspelled hopening hclosing]
      exact readsAs_parenthesized (ih hinner).isClear.isBalanced

/-- Tokens of a formula without outer parentheses, by the sign that they are split at. -/
inductive IsBare : List Token → Formula → Prop
  | equivalence {tokens tokens' : List Token} {sign : Token} {left right : Formula}
      (hleft : Derives .equivalence tokens left) (hsign : sign.kind = .equivalence)
      (hright : Derives .implication tokens' right) :
      IsBare (tokens ++ sign :: tokens') (.iff left right)
  | implication {tokens tokens' : List Token} {sign : Token} {left right : Formula}
      (hleft : Derives .disjunction tokens left) (hsign : sign.kind = .implication)
      (hright : Derives .implication tokens' right) :
      IsBare (tokens ++ sign :: tokens') (.imp left right)
  | unsplit {tokens : List Token} {formula : Formula}
      (hderives : Derives .disjunction tokens formula)
      (hother : ∀ left right, formula ≠ .imp left right) : IsBare tokens formula

/-- Parentheses around bare tokens, which are what is left of the text without them. -/
def HasCore (tokens : List Token) (formula : Formula) : Prop :=
  ∃ before inner after, tokens = before ++ (inner ++ after) ∧
    (∀ token ∈ before, token.kind = .openParen) ∧ (∀ token ∈ after, token.kind = .closeParen) ∧
    stripOuter (spelling tokens) = spelling inner ∧ IsBare inner formula

theorem IsBare.hasCore {tokens : List Token} {formula : Formula} (hbare : IsBare tokens formula)
    (hstrip : stripOuter (spelling tokens) = spelling tokens) : HasCore tokens formula :=
  ⟨[], tokens, [], by simp, by simp, by simp, hstrip, hbare⟩

theorem HasCore.group {opening closing : Token} {tokens : List Token} {formula : Formula}
    (hcore : HasCore tokens formula) (hopening : opening.kind = .openParen)
    (hclosing : closing.kind = .closeParen)
    (hstrip : stripOuter (spelling (opening :: (tokens ++ [closing]))) =
      stripOuter (spelling tokens)) :
    HasCore (opening :: (tokens ++ [closing])) formula := by
  obtain ⟨before, inner, after, rfl, hbefore, hafter, hinner, hbare⟩ := hcore
  refine ⟨opening :: before, inner, after ++ [closing], by simp, ?_, ?_, hstrip.trans hinner, hbare⟩
  · exact List.forall_mem_cons.mpr ⟨hopening, hbefore⟩
  · exact List.forall_mem_append.mpr ⟨hafter, List.forall_mem_singleton.mpr hclosing⟩

theorem Derives.stripOuter_pair {rank : Rank} {tokens tokens' : List Token} {sign : Token}
    {left : Formula} (hleft : Derives rank tokens left)
    (hspelled : ∀ token ∈ tokens ++ sign :: tokens', token.IsSpelled) :
    stripOuter (spelling (tokens ++ sign :: tokens')) = spelling (tokens ++ sign :: tokens') := by
  obtain ⟨hspelledLeft, hspelledRest⟩ := List.forall_mem_append.mp hspelled
  have hreads := hleft.readsAs hspelledLeft
  have hsign : spelling (sign :: tokens') ≠ [] := by
    rw [spelling_cons]
    exact List.append_ne_nil_of_left_ne_nil (hspelledRest sign List.mem_cons_self).ne_nil _
  rw [spelling_append]
  exact stripOuter_append hreads.ne_nil hreads.isClear.isBalanced hsign

theorem stripOuter_name {token : Token} {tokens : List Token} (hspelled : token.IsSpelled)
    (hname : token.kind = .identifier) :
    stripOuter (spelling (token :: tokens)) = spelling (token :: tokens) := by
  apply stripOuter_of_head?
  rw [spelling_cons, List.head?_append_of_ne_nil _ hspelled.ne_nil]
  intro hhead
  have hword := hspelled.forall_isWordChar hname _ (List.mem_of_head? hhead)
  exact (isWordChar_ne_paren hword).1 rfl

theorem Derives.hasCore {rank : Rank} {tokens : List Token} {formula : Formula}
    (hderives : Derives rank tokens formula) (hspelled : ∀ token ∈ tokens, token.IsSpelled) :
    HasCore tokens formula := by
  -- Only a group has outer parentheses: the other texts begin with something else, or their first
  -- operand ends before they do.
  induction hderives with
  | ofImplication _ ih => exact ih hspelled
  | ofDisjunction _ ih => exact ih hspelled
  | ofConjunction _ ih => exact ih hspelled
  | ofNegation _ ih => exact ih hspelled
  | ofPrimary _ ih => exact ih hspelled
  | equivalence hleft hsign hright =>
      exact (IsBare.equivalence hleft hsign hright).hasCore (hleft.stripOuter_pair hspelled)
  | implication hleft hsign hright =>
      exact (IsBare.implication hleft hsign hright).hasCore (hleft.stripOuter_pair hspelled)
  | disjunction hleft hsign hright =>
      have hderives := Derives.disjunction hleft hsign hright
      exact (IsBare.unsplit hderives (by simp)).hasCore (hleft.stripOuter_pair hspelled)
  | conjunction hleft hsign hright =>
      have hderives := Derives.ofConjunction (.conjunction hleft hsign hright)
      exact (IsBare.unsplit hderives (by simp)).hasCore (hleft.stripOuter_pair hspelled)
  | @negation _ sign _ hsign hoperand =>
      have hderives := (Derives.negation hsign hoperand).ofNegations
      refine (IsBare.unsplit hderives (by simp)).hasCore (stripOuter_of_head? ?_)
      rw [spelling_cons, (hspelled sign List.mem_cons_self).toList_eq hsign rfl]
      simp
  | @name token hname =>
      have hderives := (Derives.ofPrimary (.name hname)).ofNegations
      exact (IsBare.unsplit hderives (by simp)).hasCore
        (stripOuter_name (hspelled token List.mem_cons_self) hname)
  | @application token _ _ _ _ hname hplain hopening harguments hclosing =>
      have hderives := (Derives.ofPrimary
        (.application hname hplain hopening harguments hclosing)).ofNegations
      exact (IsBare.unsplit hderives (by simp)).hasCore
        (stripOuter_name (hspelled token List.mem_cons_self) hname)
  | group hopening hinner hclosing ih =>
      have hspelledInner := (List.forall_mem_append.mp (List.forall_mem_cons.mp hspelled).2).1
      have hbalanced := (hinner.readsAs hspelledInner).isClear.isBalanced
      refine (ih hspelledInner).group hopening hclosing ?_
      rw [spelling_parenthesized hspelled hopening hclosing, stripOuter_parenthesized hbalanced]

section Parts

variable {text : List Char} {tokens tokens' : List Token} {sign : Token} {left right : Formula}

theorem isSome_splitEquivalence?_of_equivalence
    (hspelled : ∀ token ∈ tokens ++ sign :: tokens', token.IsSpelled)
    (hleft : Derives .equivalence tokens left) (hsign : sign.kind = .equivalence)
    (hright : Derives .implication tokens' right) :
    (splitEquivalence? (spelling (tokens ++ sign :: tokens'))).isSome = true := by
  obtain ⟨hspelledLeft, hspelledRest⟩ := List.forall_mem_append.mp hspelled
  obtain ⟨-, hspelledRight⟩ := List.forall_mem_cons.mp hspelledRest
  have hreads := hleft.readsAs hspelledLeft
  rw [spelling_pair hspelled hsign rfl]
  exact isSome_splitTop? (by decide) (by decide) (by decide) hreads.ne_nil hreads.head?_ne
    hreads.isClear.isBalanced (hright.readsAs hspelledRight).ne_nil

theorem implicationParts?_of_equivalence
    (hspelled : ∀ token ∈ tokens ++ sign :: tokens', token.IsSpelled)
    (hstrip : stripOuter text = spelling (tokens ++ sign :: tokens'))
    (hleft : Derives .equivalence tokens left) (hsign : sign.kind = .equivalence)
    (hright : Derives .implication tokens' right) : implicationParts? text = none := by
  have hsplit := isSome_splitEquivalence?_of_equivalence hspelled hleft hsign hright
  rw [← hstrip] at hsplit
  rw [implicationParts?, if_pos hsplit]

theorem splitEquivalence?_of_implication (hspelled : ∀ token ∈ tokens, token.IsSpelled)
    (hderives : Derives .implication tokens left) : splitEquivalence? (spelling tokens) = none :=
  ((hderives.readsAs hspelled).isClear.passesOver '<' (by decide) ['-', '>']).splitTop?_eq_none
    (List.cons_ne_nil _ _)

theorem splitTop?_arrow_of_implication
    (hspelled : ∀ token ∈ tokens ++ sign :: tokens', token.IsSpelled)
    (hleft : Derives .disjunction tokens left) (hsign : sign.kind = .implication)
    (hright : Derives .implication tokens' right) :
    splitTop? (spelling (tokens ++ sign :: tokens')) arrow =
      some (spelling tokens, spelling tokens') := by
  obtain ⟨hspelledLeft, hspelledRest⟩ := List.forall_mem_append.mp hspelled
  obtain ⟨-, hspelledRight⟩ := List.forall_mem_cons.mp hspelledRest
  have hreads := hleft.readsAs hspelledLeft
  rw [spelling_pair hspelled hsign rfl]
  exact (hreads.isClear.passesOver '-' (by decide) ['>']).splitTop?_eq_some (by decide)
    (by decide) hreads.ne_nil (fun _ => hreads.getLast?_ne)
    (hright.readsAs hspelledRight).ne_nil

theorem splitTop?_arrow_of_disjunction (hspelled : ∀ token ∈ tokens, token.IsSpelled)
    (hderives : Derives .disjunction tokens left) : splitTop? (spelling tokens) arrow = none :=
  ((hderives.readsAs hspelled).isClear.passesOver '-' (by decide) ['>']).splitTop?_eq_none
    (List.cons_ne_nil _ _)

theorem implicationParts?_of_implication
    (hspelled : ∀ token ∈ tokens ++ sign :: tokens', token.IsSpelled)
    (hstrip : stripOuter text = spelling (tokens ++ sign :: tokens'))
    (hleft : Derives .disjunction tokens left) (hsign : sign.kind = .implication)
    (hright : Derives .implication tokens' right) :
    implicationParts? text =
      some (stripOuter (spelling tokens), stripOuter (spelling tokens')) := by
  have hequivalence := splitEquivalence?_of_implication hspelled (.implication hleft hsign hright)
  have harrow := splitTop?_arrow_of_implication hspelled hleft hsign hright
  rw [implicationParts?, hstrip, hequivalence]
  simp only [harrow]
  rfl

theorem implicationParts?_of_disjunction (hspelled : ∀ token ∈ tokens, token.IsSpelled)
    (hstrip : stripOuter text = spelling tokens) (hderives : Derives .disjunction tokens left) :
    implicationParts? text = none := by
  have harrow := splitTop?_arrow_of_disjunction hspelled hderives
  have hequivalence := splitEquivalence?_of_implication hspelled (.ofDisjunction hderives)
  rw [implicationParts?, hstrip, hequivalence]
  simp only [harrow]
  rfl

end Parts

theorem parse_of_spells {position : Nat} {text : List Char} {tokens : List Token}
    {formula : Formula} (hspells : Spells position text tokens)
    (hderives : Derives .equivalence tokens formula) :
    parse false (String.ofList text) = .ok formula := by
  -- The tokens of the piece, counted from its own start.
  rw [← Nat.zero_add position] at hspells
  have hscan : Token.scan false (respell (String.ofList text).toList) =
      .ok (tokens.map (moveBack position)) := by
    rw [String.toList_ofList, hspells.respell_eq]
    exact scanFrom_eq_ok_iff_spells.mpr hspells.moveBack
  rw [parse_eq_ofTokens hscan, ofTokens_eq_ok_iff]
  refine hderives.map ?_ ?_
  · exact fun _ => rfl
  · exact fun _ => rfl

theorem core_of_spells {position : Nat} {text : List Char} {tokens : List Token}
    (hspells : Spells position text tokens) : core text = stripOuter (spelling tokens) := by
  rw [core, compact, hspells.respell_eq, hspells.removeBlanks_eq]

theorem sign_or_isBlank_of_spells {position : Nat} {text : List Char} {tokens : List Token}
    {kind : TokenKind} {sign : Char} (hspells : Spells position text tokens)
    (hkind : ∀ token ∈ tokens, token.kind = kind) (hsign : sign? kind = some [sign]) :
    ∀ c ∈ text, c = sign ∨ isBlank c = true := by
  intro c hc
  rcases hspells.blank_or_mem c hc with hblank | ⟨token, htoken, hmem⟩
  · exact Or.inr hblank
  · rw [(hspells.isSpelled token htoken).toList_eq (hkind token htoken) hsign] at hmem
    exact Or.inl (List.mem_singleton.mp hmem)

/-- Around two texts with a token of a kind between them there are only blanks and outer
parentheses. -/
def IsSignBetween (kind : TokenKind) (word : String) (text first second : List Char) : Prop :=
  ∃ before after tokens, text = before ++ (first ++ (word.toList ++ (second ++ after))) ∧
    (∀ c ∈ before, c = '(' ∨ isBlank c = true) ∧ (∀ c ∈ after, c = ')' ∨ isBlank c = true) ∧
    Token.scan false text = .ok tokens ∧ ⟨kind, word, before.length + first.length⟩ ∈ tokens

theorem exists_pieces_of_spells {text : List Char} {before tokens tokens' after : List Token}
    {sign : Token} {kind : TokenKind} (word : String)
    (hspells : Spells 0 text (before ++ ((tokens ++ sign :: tokens') ++ after)))
    (hbefore : ∀ token ∈ before, token.kind = .openParen)
    (hafter : ∀ token ∈ after, token.kind = .closeParen) (hsign : sign.kind = kind)
    (hkind : sign? kind = some word.toList) :
    ∃ first second, IsSignBetween kind word text first second ∧
      (∃ position, Spells position first tokens) ∧ ∃ position, Spells position second tokens' := by
  have hscan := scanFrom_eq_ok_iff_spells.mpr hspells
  have hword := (hspells.isSpelled sign (by simp)).toList_eq hsign hkind
  obtain ⟨opened, rest, rfl, hopened, hrest, -⟩ := hspells.exists_append
  obtain ⟨inner, closed, rfl, hinner, hclosed, -⟩ := hrest.exists_append
  obtain ⟨first, second, rfl, hfirst, hposition, hsecond⟩ := hinner.exists_append_cons
  have hplaced : sign = ⟨kind, word, opened.length + first.length⟩ := by
    obtain ⟨_, text, position⟩ := sign
    obtain rfl := hsign
    obtain rfl : text = word := String.toList_inj.mp hword
    rw [Nat.zero_add] at hposition
    obtain rfl : position = _ := hposition
    rfl
  refine ⟨first, second, ⟨opened, closed, _, ?_, sign_or_isBlank_of_spells hopened hbefore rfl,
    sign_or_isBlank_of_spells hclosed hafter rfl, hscan, ?_⟩, ⟨_, hfirst⟩, _, hsecond⟩
  · rw [hword]
    simp
  · rw [← hplaced]
    simp

/-- For a text that is read as a formula, the split of the compact text finds an implication exactly
if the formula is one, and then the cores of two pieces of the text around a sign of implication,
which are read as the antecedent and the consequent. -/
theorem implication_split_of_parse (text : String) (formula : Formula)
    (hparse : parse false text = .ok formula) :
    ((implicationParts? (compact text.toList)).isSome = true ↔
      ∃ left right, formula = .imp left right) ∧
    ∀ left right, formula = .imp left right → ∃ first second,
      IsSignBetween .implication "->" (respell text.toList) first second ∧
      parse false (String.ofList first) = .ok left ∧
      parse false (String.ofList second) = .ok right ∧
      implicationParts? (compact text.toList) = some (core first, core second) := by
  obtain ⟨tokens, hscan, hderives⟩ := exists_tokens_of_parse hparse
  have hspells : Spells 0 (respell text.toList) tokens := scanFrom_eq_ok_iff_spells.mp hscan
  obtain ⟨before, inner, after, rfl, hbefore, hafter, hstrip, hbare⟩ :=
    hderives.hasCore hspells.isSpelled
  have hspelled : ∀ token ∈ inner, token.IsSpelled := fun token htoken =>
    hspells.isSpelled token (by simp [htoken])
  have hbody : stripOuter (compact text.toList) = spelling inner := by
    rw [compact, hspells.removeBlanks_eq, hstrip]
  cases hbare with
  | equivalence hleft hsign hright =>
      simp [implicationParts?_of_equivalence hspelled hbody hleft hsign hright]
  | unsplit hinner hother =>
      simp [implicationParts?_of_disjunction hspelled hbody hinner, hother]
  | @implication _ _ _ left right hleft hsign hright =>
      have hparts := implicationParts?_of_implication hspelled hbody hleft hsign hright
      obtain ⟨first, second, hbetween, ⟨_, hfirst⟩, _, hsecond⟩ :=
        exists_pieces_of_spells "->" hspells hbefore hafter hsign rfl
      rw [← core_of_spells hfirst, ← core_of_spells hsecond] at hparts
      refine ⟨by simp [hparts], ?_⟩
      rintro _ _ ⟨⟩
      exact ⟨first, second, hbetween, parse_of_spells hfirst (.ofImplication (.ofDisjunction hleft)),
        parse_of_spells hsecond (.ofImplication hright), hparts⟩

theorem grouped_implication_is_split :
    parse false "( (P(x) ∨ A → B) => (B <=> C) )" =
      .ok (.imp (.imp (.disj (.atom "P(x)") (.atom "A")) (.atom "B"))
        (.iff (.atom "B") (.atom "C"))) ∧
    (implicationParts? (compact "( (P(x) ∨ A → B) => (B <=> C) )".toList)).isSome = true ∧
    ∃ first second,
      IsSignBetween .implication "->" (respell "( (P(x) ∨ A → B) => (B <=> C) )".toList)
        first second ∧
      parse false (String.ofList first) =
        .ok (.imp (.disj (.atom "P(x)") (.atom "A")) (.atom "B")) ∧
      parse false (String.ofList second) = .ok (.iff (.atom "B") (.atom "C")) ∧
      implicationParts? (compact "( (P(x) ∨ A → B) => (B <=> C) )".toList) =
        some (core first, core second) := by
  have hparse : parse false "( (P(x) ∨ A → B) => (B <=> C) )" =
      .ok (.imp (.imp (.disj (.atom "P(x)") (.atom "A")) (.atom "B"))
        (.iff (.atom "B") (.atom "C"))) := by
    decide +kernel
  have hsplit := implication_split_of_parse _ _ hparse
  exact ⟨hparse, hsplit.1.mpr ⟨_, _, rfl⟩, hsplit.2 _ _ rfl⟩

end Deduction.Formula
