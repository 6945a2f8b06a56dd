import Deduction.Proofs.Formula.Grammar
import Deduction.Proofs.Formula.Lexeme

namespace Deduction.Formula

open Text Token

/-- Where a reader stands between two tokens. -/
inductive Phase
  | operand
  | name (word : String)
  | close

/-- The tokens that each phase admits, and the phase after them. -/
inductive Step : Phase → Token → Phase → Prop
  | negation {token : Token} (hkind : token.kind = .negation) : Step .operand token .operand
  | opening {token : Token} (hkind : token.kind = .openParen) : Step .operand token .operand
  | name {token : Token} (hkind : token.kind = .identifier) :
      Step .operand token (.name token.text)
  | arguments {word : String} {token : Token} (hplain : ¬ QuantifierPrefix word)
      (hkind : token.kind = .openParen) : Step (.name word) token .operand
  | closing {phase : Phase} {token : Token} (hphase : phase ≠ .operand)
      (hkind : token.kind = .closeParen) : Step phase token .close
  | joining {phase : Phase} {token : Token} (hphase : phase ≠ .operand)
      (hkind : token.kind ∈ [.conjunction, .disjunction, .implication, .equivalence, .comma]) :
      Step phase token .operand

/-- The phases that tokens lead through. -/
inductive Run : Phase → List Token → Phase → Prop
  | done {phase : Phase} : Run phase [] phase
  | step {phase next last : Phase} {token : Token} {tokens : List Token}
      (hstep : Step phase token next) (hrest : Run next tokens last) :
      Run phase (token :: tokens) last

theorem Run.append {phase middle last : Phase} {tokens tokens' : List Token}
    (hfirst : Run phase tokens middle) (hsecond : Run middle tokens' last) :
    Run phase (tokens ++ tokens') last := by
  induction hfirst with
  | done => exact hsecond
  | step hstep _ ih => exact .step hstep (ih hsecond)

theorem DerivesArguments.run {tokens : List Token} {names : List String}
    (hderives : DerivesArguments tokens names) : ∃ word, Run .operand tokens (.name word) := by
  induction hderives with
  | last hname => exact ⟨_, .step (.name hname) .done⟩
  | more hname hcomma _ ih =>
      obtain ⟨word, hrest⟩ := ih
      exact ⟨word, .step (.name hname) (.step (.joining (by simp) (by simp [hcomma])) hrest)⟩

/-- A formula is read from before an operand to after one. -/
def IsOperand (tokens : List Token) : Prop :=
  ∃ last, Run .operand tokens last ∧ last ≠ .operand

theorem IsOperand.join {tokens tokens' : List Token} {sign : Token} (hleft : IsOperand tokens)
    (hkind : sign.kind ∈ [.conjunction, .disjunction, .implication, .equivalence, .comma])
    (hright : IsOperand tokens') : IsOperand (tokens ++ sign :: tokens') := by
  obtain ⟨middle, hrun, hmiddle⟩ := hleft
  obtain ⟨last, hrun', hlast⟩ := hright
  exact ⟨last, hrun.append (.step (.joining hmiddle hkind) hrun'), hlast⟩

theorem Derives.isOperand {rank : Rank} {tokens : List Token} {formula : Formula}
    (hderives : Derives rank tokens formula) : IsOperand tokens := by
  induction hderives with
  | ofImplication _ ih => exact ih
  | ofDisjunction _ ih => exact ih
  | ofConjunction _ ih => exact ih
  | ofNegation _ ih => exact ih
  | ofPrimary _ ih => exact ih
  | equivalence _ hsign _ ihleft ihright => exact ihleft.join (by simp [hsign]) ihright
  | implication _ hsign _ ihleft ihright => exact ihleft.join (by simp [hsign]) ihright
  | disjunction _ hsign _ ihleft ihright => exact ihleft.join (by simp [hsign]) ihright
  | conjunction _ hsign _ ihleft ihright => exact ihleft.join (by simp [hsign]) ihright
  | negation hsign _ ih =>
      obtain ⟨last, hrun, hlast⟩ := ih
      exact ⟨last, .step (.negation hsign) hrun, hlast⟩
  | name hname => exact ⟨_, .step (.name hname) .done, by simp⟩
  | application hname hplain hopening harguments hclosing =>
      obtain ⟨word, hrun⟩ := harguments.run
      refine ⟨.close, .step (.name hname) (.step (.arguments hplain hopening) ?_), by simp⟩
      exact hrun.append (.step (.closing (by simp) hclosing) .done)
  | group hopening _ hclosing ih =>
      obtain ⟨last, hrun, hlast⟩ := ih
      refine ⟨.close, .step (.opening hopening) ?_, by simp⟩
      exact hrun.append (.step (.closing hlast hclosing) .done)

/-- The kind of token that begins with a character in a phase. -/
def Phase.kindAt (phase : Phase) (c : Char) : TokenKind :=
  if isWordChar c then
    match phase with
    | .operand => .identifier
    | _ => .disjunction
  else
    match c with
    | '!' => .negation
    | '^' => .conjunction
    | '-' => .implication
    | '<' => .equivalence
    | '(' => .openParen
    | ')' => .closeParen
    | _ => .comma

theorem Step.kind_eq {phase next : Phase} {token : Token} {c : Char} {tail : List Char}
    (hstep : Step phase token next) (hspelled : token.IsSpelled)
    (htext : token.text.toList = c :: tail) : token.kind = phase.kindAt c := by
  have hsign : ∀ {kind : TokenKind} {first : Char} {rest : List Char}, token.kind = kind →
      sign? kind = some (first :: rest) → c = first := by
    intro kind first rest hkind hsign
    rw [hspelled.toList_eq hkind hsign] at htext
    exact (List.cons.inj htext).1.symm
  cases hstep with
  | negation hkind =>
      rw [hkind, hsign hkind rfl]
      rfl
  | opening hkind =>
      rw [hkind, hsign hkind rfl]
      rfl
  | name hkind =>
      have hc := hspelled.forall_isWordChar hkind c (by simp [htext])
      simp [hkind, Phase.kindAt, hc]
  | arguments _ hkind =>
      rw [hkind, hsign hkind rfl]
      rfl
  | closing _ hkind =>
      rw [hkind, hsign hkind rfl]
      rfl
  | joining hphase hkind =>
      simp only [List.mem_cons, List.not_mem_nil, or_false] at hkind
      rcases hkind with hkind | hkind | hkind | hkind | hkind
      all_goals rw [hkind, hsign hkind rfl]
      case inr.inl =>
        cases phase with
        | operand => contradiction
        | name => rfl
        | close => rfl
      all_goals rfl

/-- The phase that a token leads to, wherever it is admitted. -/
def Phase.after (token : Token) : Phase :=
  match token.kind with
  | .identifier => .name token.text
  | .closeParen => .close
  | _ => .operand

theorem Step.next_eq {phase next : Phase} {token : Token} (hstep : Step phase token next) :
    next = .after token := by
  cases hstep with
  | negation hkind => simp [Phase.after, hkind]
  | opening hkind => simp [Phase.after, hkind]
  | name hkind => simp [Phase.after, hkind]
  | arguments _ hkind => simp [Phase.after, hkind]
  | closing _ hkind => simp [Phase.after, hkind]
  | joining _ hkind =>
      simp only [List.mem_cons, List.not_mem_nil, or_false] at hkind
      rcases hkind with hkind | hkind | hkind | hkind | hkind
      all_goals simp [Phase.after, hkind]

theorem Run.exists_first {phase last : Phase} {tokens : List Token} {c : Char} {rest : List Char}
    (hrun : Run phase tokens last) (hspelled : ∀ token ∈ tokens, token.IsSpelled)
    (htext : spelling tokens = c :: rest) :
    ∃ token tokens' tail next, tokens = token :: tokens' ∧ token.text.toList = c :: tail ∧
      rest = tail ++ spelling tokens' ∧ token.kind = phase.kindAt c ∧ Step phase token next ∧
      Run next tokens' last := by
  cases hrun with
  | done => simp [spelling] at htext
  | @step _ next _ token tokens' hstep hrest =>
      have htoken := hspelled token List.mem_cons_self
      obtain ⟨first, tail, hword⟩ := List.exists_cons_of_ne_nil htoken.ne_nil
      rw [spelling_cons, hword, List.cons_append] at htext
      obtain ⟨rfl, rfl⟩ := List.cons.inj htext
      exact ⟨token, tokens', tail, next, rfl, hword, rfl, hstep.kind_eq htoken hword, hstep, hrest⟩

theorem Run.exists_last {phase last : Phase} {tokens : List Token} (hrun : Run phase tokens last)
    (hsome : tokens ≠ []) : ∃ tokens' token, tokens = tokens' ++ [token] ∧ last = .after token := by
  induction hrun with
  | done => exact absurd rfl hsome
  | @step _ _ _ token _ hstep hrest ih =>
      cases hrest with
      | done => exact ⟨[], token, rfl, hstep.next_eq⟩
      | step =>
          obtain ⟨tokens', other, htokens, hafter⟩ := ih (List.cons_ne_nil _ _)
          exact ⟨token :: tokens', other, by rw [htokens, List.cons_append], hafter⟩

/-- A token without its place in the text. -/
def unplaced (token : Token) : Token :=
  { token with position := 0 }

@[simp] theorem kind_unplaced (token : Token) : (unplaced token).kind = token.kind := rfl

@[simp] theorem text_unplaced (token : Token) : (unplaced token).text = token.text := rfl

theorem unplaced_eq_iff {token token' : Token} :
    unplaced token = unplaced token' ↔ token.kind = token'.kind ∧ token.text = token'.text := by
  simp [unplaced]

theorem kind_eq_identifier_of_text_ne {token token' : Token} (hspelled : token.IsSpelled)
    (hspelled' : token'.IsSpelled) (hkind : token.kind = token'.kind)
    (hother : token.text ≠ token'.text) : token.kind = .identifier := by
  cases hsign : sign? token.kind with
  | some word =>
      have htext := hspelled.toList_eq rfl hsign
      have htext' := hspelled'.toList_eq hkind.symm hsign
      exact absurd (String.toList_inj.mp (htext.trans htext'.symm)) hother
  | none =>
      rw [IsSpelled] at hspelled
      generalize token.kind = kind, token.text.toList = word at hspelled hsign
      cases hspelled with
      | sign hword => simp [hsign] at hword
      | identifier => rfl

/-- The texts of the names among tokens. -/
def names (tokens : List Token) : List (List Char) :=
  (tokens.filter fun token => token.kind = .identifier).map fun token => token.text.toList

/-- A name of the first tokens has the letter for disjunction in it, and the second ones have a
disjunction. -/
structure Absorbs (tokens tokens' : List Token) : Prop where
  name : ∃ token ∈ tokens, token.kind = .identifier ∧ 'v' ∈ token.text.toList
  sign : ∃ token ∈ tokens', token.kind = .disjunction

theorem Absorbs.cons {tokens tokens' : List Token} (habsorbs : Absorbs tokens tokens')
    (token token' : Token) : Absorbs (token :: tokens) (token' :: tokens') where
  name := by
    obtain ⟨found, hfound, hname⟩ := habsorbs.name
    exact ⟨found, List.mem_cons_of_mem _ hfound, hname⟩
  sign := by
    obtain ⟨found, hfound, hsign⟩ := habsorbs.sign
    exact ⟨found, List.mem_cons_of_mem _ hfound, hsign⟩

/-- After a name, a longer name goes on with the letter for disjunction. -/
theorem Run.absorbs_of_longer {token token' : Token} {rest rest' : List Token} {last : Phase}
    {more : List Char} (hrun : Run (.name token.text) rest last)
    (hspelled : ∀ token ∈ rest, token.IsSpelled) (hspelled' : token'.IsSpelled)
    (hname' : token'.kind = .identifier) (hsome : more ≠ [])
    (hlonger : token'.text.toList = token.text.toList ++ more)
    (hrest : spelling rest = more ++ spelling rest') :
    Absorbs (token' :: rest') (token :: rest) := by
  obtain ⟨c, more, rfl⟩ := List.exists_cons_of_ne_nil hsome
  cases hrun with
  | done => simp [spelling] at hrest
  | @step _ next _ sign rest hstep _ =>
      have hsign := hspelled sign List.mem_cons_self
      have hc : isWordChar c = true := hspelled'.forall_isWordChar hname' c (by simp [hlonger])
      obtain ⟨d, tail, htext⟩ := List.exists_cons_of_ne_nil hsign.ne_nil
      rw [spelling_cons, htext] at hrest
      obtain ⟨rfl, -⟩ := List.cons.inj hrest
      have hkind : sign.kind = .disjunction := by
        simp [hstep.kind_eq hsign htext, Phase.kindAt, hc]
      obtain ⟨rfl, -⟩ := List.cons.inj (htext.symm.trans (hsign.toList_eq hkind rfl))
      exact ⟨⟨token', List.mem_cons_self, hname', by simp [hlonger]⟩,
        ⟨sign, by simp, hkind⟩⟩

theorem names_cons_eq_iff {token token' : Token} {tokens tokens' : List Token}
    (hkind : token.kind = token'.kind) (htext : token.text = token'.text) :
    names (token :: tokens) = names (token' :: tokens') ↔ names tokens = names tokens' := by
  by_cases hname : token'.kind = .identifier
  · simp [names, hkind, htext, hname]
  · simp [names, hkind, hname]

/-- Tokens of one text, read from one phase, are the same if their names are; else a name on one
side has absorbed the word for disjunction. -/
theorem Run.eq_or_absorbs {phase last last' : Phase} {tokens tokens' : List Token}
    (hrun : Run phase tokens last) (hrun' : Run phase tokens' last')
    (hspelled : ∀ token ∈ tokens, token.IsSpelled) (hspelled' : ∀ token ∈ tokens', token.IsSpelled)
    (htext : spelling tokens = spelling tokens') :
    tokens.map unplaced = tokens'.map unplaced ∨
      names tokens ≠ names tokens' ∧ (Absorbs tokens tokens' ∨ Absorbs tokens' tokens) := by
  induction hrun generalizing tokens' with
  | done =>
      cases hrun' with
      | done => exact Or.inl rfl
      | @step _ _ _ token' rest' _ _ =>
          have hsome := (hspelled' token' List.mem_cons_self).ne_nil
          simp [spelling, hsome] at htext
  | @step phase next last token rest hstep hrest ih =>
      obtain ⟨htoken, hspelledRest⟩ := List.forall_mem_cons.mp hspelled
      cases hrun' with
      | done => simp [spelling, htoken.ne_nil] at htext
      | @step _ next' _ token' rest' hstep' hrest' =>
          obtain ⟨htoken', hspelledRest'⟩ := List.forall_mem_cons.mp hspelled'
          rw [spelling_cons, spelling_cons] at htext
          have hkind : token.kind = token'.kind := by
            obtain ⟨c, tail, hhead⟩ := List.exists_cons_of_ne_nil htoken.ne_nil
            obtain ⟨c', tail', hhead'⟩ := List.exists_cons_of_ne_nil htoken'.ne_nil
            rw [hhead, hhead'] at htext
            obtain ⟨rfl, -⟩ := List.cons.inj htext
            rw [hstep.kind_eq htoken hhead, hstep'.kind_eq htoken' hhead']
          by_cases hsame : token.text = token'.text
          · -- The first tokens are the same, and what is after them is compared.
            obtain rfl : next' = next := by
              rw [hstep.next_eq, hstep'.next_eq, Phase.after, Phase.after, hkind, hsame]
            rw [hsame] at htext
            rcases ih hrest' hspelledRest hspelledRest' (List.append_cancel_left htext) with
              hrests | ⟨hnames, habsorbs⟩
            · exact Or.inl (by simp [unplaced_eq_iff.mpr ⟨hkind, hsame⟩, hrests])
            · refine Or.inr ⟨fun h => hnames ((names_cons_eq_iff hkind hsame).mp h), ?_⟩
              exact habsorbs.imp (·.cons token token') (·.cons token' token)
          · -- Only names of different lengths have the same kind and not the same text.
            have hname := kind_eq_identifier_of_text_ne htoken htoken' hkind hsame
            have hname' : token'.kind = .identifier := hkind.symm.trans hname
            have hlists : token.text.toList ≠ token'.text.toList :=
              fun h => hsame (String.toList_inj.mp h)
            refine Or.inr ⟨by simp [names, hname, hname', hlists], ?_⟩
            obtain rfl : next = .name token.text := by rw [hstep.next_eq, Phase.after, hname]
            obtain rfl : next' = .name token'.text := by rw [hstep'.next_eq, Phase.after, hname']
            rcases List.append_eq_append_iff.mp htext with
              ⟨more, hlonger, hafter⟩ | ⟨more, hlonger, hafter⟩
            · have hsome : more ≠ [] := by
                rintro rfl
                exact hlists (by simp [hlonger])
              exact Or.inr
                (hrest.absorbs_of_longer hspelledRest htoken' hname' hsome hlonger hafter)
            · have hsome : more ≠ [] := by
                rintro rfl
                exact hlists (by simp [hlonger])
              exact Or.inl
                (hrest'.absorbs_of_longer hspelledRest' htoken hname hsome hlonger hafter)

end Deduction.Formula
