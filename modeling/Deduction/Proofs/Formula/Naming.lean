import Deduction.Proofs.Formula.Grammar
import Deduction.Proofs.Formula.Rearrangement
import Deduction.Proofs.Formula.Tokenization

namespace Deduction.Formula

/-- An identifier other than the word for disjunction. -/
def IsWord (name : String) : Prop :=
  IsIdentifier name ∧ name ≠ "v"

/-- A token for a name has a word for its text. -/
def IsLexical (token : Token) : Prop :=
  token.kind = .identifier → IsWord token.text

theorem isLexical_of_isSpelled {token : Token} (hspelled : token.IsSpelled) : IsLexical token := by
  intro hname
  rw [Token.IsSpelled, hname] at hspelled
  generalize hlist : token.text.toList = word at hspelled
  cases hspelled with
  | sign hsign => contradiction
  | identifier hletter hword hother =>
      refine ⟨⟨_, _, hlist, hletter, hword⟩, ?_⟩
      intro hdisjunction
      rw [hdisjunction] at hlist
      exact hother hlist.symm

theorem DerivesArguments.isWord {tokens : List Token} {names : List String}
    (hderives : DerivesArguments tokens names) (hlexical : ∀ token ∈ tokens, IsLexical token) :
    names ≠ [] ∧ ∀ name ∈ names, IsWord name := by
  induction hderives with
  | @last token hname =>
      refine ⟨List.cons_ne_nil _ _, ?_⟩
      intro name hmem
      rw [List.mem_singleton.mp hmem]
      exact hlexical token (List.mem_singleton_self _) hname
  | @more token comma tokens names hname _ _ ih =>
      refine ⟨List.cons_ne_nil _ _, ?_⟩
      intro name hmem
      rcases List.mem_cons.mp hmem with rfl | hmem
      · exact hlexical token (List.mem_cons_self ..) hname
      · have hrest : ∀ token ∈ tokens, IsLexical token := fun token htoken =>
          hlexical token (List.mem_cons_of_mem _ (List.mem_cons_of_mem _ htoken))
        exact (ih hrest).2 name hmem

/-- Names that a reading may give to atoms: words, words applied to words, and the placeholder if
the reading is lenient. -/
structure IsNaming (lenient : Bool) (valid : String → Prop) : Prop where
  word : ∀ {name}, IsWord name → valid name
  application : ∀ {name arguments}, IsWord name → ¬ QuantifierPrefix name → arguments ≠ [] →
    (∀ argument ∈ arguments, IsWord argument) → valid (applicationName name arguments)
  placeholder : lenient = true → valid "?"

/-- Lexical tokens stand for a formula whose atoms have such names. -/
def NamesWhenLexical (valid : String → Prop) (_ : Rank) (tokens : List Token)
    (formula : Formula) : Prop :=
  (∀ token ∈ tokens, IsLexical token) → ∀ name ∈ formula.atoms, valid name

theorem namesWhenLexical_pair {valid : String → Prop} {rank rank' : Rank}
    {tokens tokens' : List Token} {sign : Token} {left right : Formula}
    (hleft : NamesWhenLexical valid rank tokens left)
    (hright : NamesWhenLexical valid rank' tokens' right)
    (hlexical : ∀ token ∈ tokens ++ sign :: tokens', IsLexical token) :
    ∀ name ∈ left.atoms ++ right.atoms, valid name := by
  intro name hname
  rcases List.mem_append.mp hname with hname | hname
  · exact hleft (fun token htoken => hlexical token (List.mem_append_left _ htoken)) name hname
  · exact hright (fun token htoken =>
      hlexical token (List.mem_append_right _ (List.mem_cons_of_mem _ htoken))) name hname

theorem IsNaming.isReadable {lenient : Bool} {valid : String → Prop}
    (hnaming : IsNaming lenient valid) : IsReadable lenient (NamesWhenLexical valid) where
  ofImplication := id
  equivalence := fun hleft _ hright => namesWhenLexical_pair hleft hright
  ofDisjunction := id
  implication := fun hleft _ hright => namesWhenLexical_pair hleft hright
  ofConjunction := id
  disjunction := fun hleft _ hright => namesWhenLexical_pair hleft hright
  ofNegation := id
  conjunction := fun hleft _ hright => namesWhenLexical_pair hleft hright
  ofPrimary := id
  negation := fun _ hoperand hlexical =>
    hoperand fun token htoken => hlexical token (List.mem_cons_of_mem _ htoken)
  name := by
    intro token hkind hlexical name hname
    rw [List.mem_singleton.mp hname]
    exact hnaming.word (hlexical token (List.mem_singleton_self _) hkind)
  application := by
    intro token opening closing tokens names hkind hquantifier _ harguments _ hlexical name hname
    rw [List.mem_singleton.mp hname]
    have htokens : ∀ token ∈ tokens, IsLexical token := by
      intro token htoken
      apply hlexical
      simp [htoken]
    obtain ⟨hsome, hnames⟩ := harguments.isWord htokens
    exact hnaming.application (hlexical token (List.mem_cons_self ..) hkind) hquantifier hsome
      hnames
  group := by
    intro opening closing tokens formula _ hformula _ hlexical
    apply hformula
    intro token htoken
    apply hlexical
    simp [htoken]
  missing := by
    intro hlenient _ name hname
    rw [List.mem_singleton.mp hname]
    exact hnaming.placeholder hlenient
  skipped := by
    intro _ hlenient _ name hname
    rw [List.mem_singleton.mp hname]
    exact hnaming.placeholder hlenient

theorem IsNaming.forall_atoms_of_parsePlain {lenient : Bool} {valid : String → Prop}
    (hnaming : IsNaming lenient valid) {text : List Char} {formula : Formula}
    (hparse : parsePlain lenient text = .ok formula) : ∀ name ∈ formula.atoms, valid name := by
  unfold parsePlain at hparse
  split at hparse
  · rename_i tokens hscan
    exact hnaming.isReadable.ofTokens hparse fun token htoken =>
      isLexical_of_isSpelled (Token.isSpelled_of_scan hscan token htoken)
  · contradiction

theorem IsNaming.forall_atoms_of_parse {lenient : Bool} {valid : String → Prop}
    (hnaming : IsNaming lenient valid) {text : String} {formula : Formula}
    (hparse : parse lenient text = .ok formula) : ∀ name ∈ formula.atoms, valid name := by
  cases hplain : parsePlain lenient (respell text.toList) with
  | ok formula' =>
      rw [parse, hplain] at hparse
      exact Except.ok.inj hparse ▸ hnaming.forall_atoms_of_parsePlain hplain
  | error error =>
      rw [parse, hplain] at hparse
      cases lenient with
      | true =>
          obtain rfl := Except.ok.inj hparse
          intro name hname
          rw [List.mem_singleton.mp hname]
          exact hnaming.placeholder rfl
      | false => contradiction

theorem isNaming_isAtomName (lenient : Bool) : IsNaming lenient IsAtomName where
  word := fun hname => .identifier hname.1
  application := fun hname _ hsome harguments =>
    .application hname.1 hsome fun argument hargument => (harguments argument hargument).1
  placeholder := fun _ => .placeholder

theorem isNamed_of_parse {lenient : Bool} {text : String} {formula : Formula}
    (hparse : parse lenient text = .ok formula) : IsNamed formula :=
  (isNaming_isAtomName lenient).forall_atoms_of_parse hparse

theorem isNamed_of_parse? {lenient : Bool} {text : String} {formula : Formula}
    (hparse : parse? lenient text = some formula) : IsNamed formula := by
  unfold parse? at hparse
  cases hresult : parse lenient text with
  | ok formula' =>
      rw [hresult] at hparse
      obtain rfl := Option.some.inj hparse
      exact isNamed_of_parse hresult
  | error error =>
      rw [hresult] at hparse
      contradiction

/-- A name that some text has for an atom, read strictly or leniently. -/
def IsReadName (name : String) : Prop :=
  ∃ lenient text formula, parse lenient text = .ok formula ∧ name ∈ formula.atoms

theorem IsReadName.isAtomName {name : String} (hname : IsReadName name) : IsAtomName name := by
  obtain ⟨lenient, text, formula, hparse, hmem⟩ := hname
  exact isNamed_of_parse hparse name hmem

/-- Trees with names that can be read have the same key only if they are the same, and canonical
keys that are the same only if they agree. -/
theorem key_eq_iff_of_isReadName {first second : Formula}
    (hfirst : ∀ name ∈ first.atoms, IsReadName name)
    (hsecond : ∀ name ∈ second.atoms, IsReadName name) :
    (first.key = second.key ↔ first = second) ∧
      (first.canonicalKey = second.canonicalKey ↔ first.agrees second = true) := by
  have hnamed : IsNamed first := fun name hname => (hfirst name hname).isAtomName
  have hnamed' : IsNamed second := fun name hname => (hsecond name hname).isAtomName
  refine ⟨?_, canonicalKey_eq_iff hnamed hnamed'⟩
  constructor
  · exact key_injective hnamed hnamed'
  · exact congrArg key

theorem key_of_moved_negation :
    key (.imp (.atom "P(a,b)") (.neg (.atom "?"))) ≠
      key (.imp (.neg (.atom "P(a,b)")) (.atom "?")) := by
  have happlication : IsReadName "P(a,b)" :=
    ⟨false, "P(a,b)", .atom "P(a,b)", by decide +kernel, List.mem_singleton_self _⟩
  have hplaceholder : IsReadName "?" :=
    ⟨true, "", placeholder, by decide +kernel, List.mem_singleton_self _⟩
  have hnames : ∀ name ∈ ["P(a,b)", "?"], IsReadName name := by
    simp [happlication, hplaceholder]
  have htold := @key_eq_iff_of_isReadName (.imp (.atom "P(a,b)") (.neg (.atom "?")))
    (.imp (.neg (.atom "P(a,b)")) (.atom "?")) hnames hnames
  intro hkey
  exact absurd (htold.1.mp hkey) (by decide)

-- Names with parentheses that do not match run over the places where operands end.
example :
    key (.conj (.atom "A),(v:B") (.atom "C")) = key (.conj (.atom "A") (.atom "B),(v:C")) := by
  decide +kernel

end Deduction.Formula
