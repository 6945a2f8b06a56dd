import Deduction.Formula.Token
import Deduction.Proofs.Formula.Key

namespace Deduction.Token

open Text Formula

theorem scanFrom_skip (lenient : Bool) (position : Nat) {skip : Nat} {text : List Char}
    (hskip : skip ≤ text.length) :
    scanFrom lenient position skip text =
      scanFrom lenient (position + skip) 0 (text.drop skip) := by
  induction text generalizing position skip with
  | nil =>
      obtain rfl : skip = 0 := Nat.le_zero.mp hskip
      rfl
  | cons c rest ih =>
      cases skip with
      | zero => rfl
      | succ skip =>
          rw [scanFrom, ih (position + 1) (Nat.le_of_succ_le_succ hskip), List.drop_succ_cons]
          congr 1
          omega

theorem scanFrom_blank {c : Char} (hblank : isBlank c = true) (lenient : Bool) (position : Nat)
    (rest : List Char) :
    scanFrom lenient position 0 (c :: rest) = scanFrom lenient (position + 1) 0 rest := by
  rw [scanFrom, if_pos hblank]

theorem scanFrom_lexeme {lenient : Bool} {position : Nat} {kind : TokenKind} {c : Char}
    {word rest : List Char} {tokens : List Token} (hblank : isBlank c = false)
    (hlexeme : lexeme? (c :: (word ++ rest)) = some (kind, c :: word))
    (hrest : scanFrom lenient (position + (word.length + 1)) 0 rest = .ok tokens) :
    scanFrom lenient position 0 (c :: (word ++ rest)) =
      .ok ({ kind, text := String.ofList (c :: word), position } :: tokens) := by
  have hskipped : scanFrom lenient (position + 1) ((c :: word).length - 1) (word ++ rest) =
      .ok tokens := by
    rw [List.length_cons, Nat.add_sub_cancel, scanFrom_skip _ _ (by simp), List.drop_left,
      Nat.add_assoc, Nat.add_comm 1]
    exact hrest
  rw [scanFrom, if_neg (by simp [hblank]), hlexeme]
  simp only [hskipped]

theorem lexeme?_letter {c : Char} (hletter : isLetter c = true) (rest : List Char) :
    lexeme? (c :: rest) =
      some (if (c :: rest.takeWhile isWordChar) == ['v'] then .disjunction else .identifier,
        c :: rest.takeWhile isWordChar) := by
  have hword : identifier? (c :: rest) =
      some (c :: rest.takeWhile isWordChar, rest.dropWhile isWordChar) := by
    rw [identifier?, if_pos hletter]
  unfold lexeme?
  split
  case h_8 => rw [hword]
  all_goals
    rename_i heq
    obtain ⟨rfl, -⟩ := List.cons.inj heq
    exact absurd hletter (by decide)

theorem isBlank_of_isWordChar {c : Char} (hword : isWordChar c = true) : isBlank c = false := by
  simp only [isWordChar, isLetter, isDigit, Bool.or_eq_true, Bool.and_eq_true, decide_eq_true_eq,
    beq_iff_eq] at hword
  have hnat : 48 ≤ c.toNat ∧ c.toNat ≤ 122 := by
    rcases hword with (hletter | hdigit) | rfl
    · omega
    · omega
    · decide
  simp only [isBlank, Bool.or_eq_false_iff, Bool.and_eq_false_iff, decide_eq_false_iff_not,
    beq_eq_false_iff_ne]
  omega

/-- A word before these characters ends where they begin. -/
def Separates (rest : List Char) : Prop :=
  ∀ c ∈ rest.head?, isWordChar c = false

theorem separates_nil : Separates [] := by
  simp [Separates]

theorem separates_cons {c : Char} (hc : isWordChar c = false) (rest : List Char) :
    Separates (c :: rest) := by
  simpa [Separates] using hc

theorem Separates.takeWhile_eq_nil {rest : List Char} (hrest : Separates rest) :
    rest.takeWhile isWordChar = [] := by
  cases rest with
  | nil => rfl
  | cons c rest => simp [hrest c rfl]

/-- Before whatever ends a word, a text scans to tokens with a property. -/
def ScansTo (property : List Token → Prop) (text : List Char) : Prop :=
  ∀ position rest tail, Separates rest →
    scanFrom false (position + text.length) 0 rest = .ok tail →
      ∃ tokens, scanFrom false position 0 (text ++ rest) = .ok (tokens ++ tail) ∧ property tokens

namespace ScansTo

variable {property property' joined : List Token → Prop} {text text' : List Char}

theorem scan_eq (hscans : ScansTo property text) :
    ∃ tokens, scan false text = .ok tokens ∧ property tokens := by
  obtain ⟨tokens, hscan, hproperty⟩ := hscans 0 [] [] separates_nil rfl
  rw [List.append_nil, List.append_nil] at hscan
  exact ⟨tokens, hscan, hproperty⟩

theorem mono (hscans : ScansTo property text)
    (himp : ∀ tokens, property tokens → property' tokens) : ScansTo property' text := by
  intro position rest tail hrest htail
  obtain ⟨tokens, hscan, hproperty⟩ := hscans position rest tail hrest htail
  exact ⟨tokens, hscan, himp tokens hproperty⟩

theorem append {c : Char} (hfirst : ScansTo property text)
    (hsecond : ScansTo property' (c :: text')) (hc : isWordChar c = false)
    (hjoin : ∀ tokens tokens', property tokens → property' tokens' → joined (tokens ++ tokens')) :
    ScansTo joined (text ++ c :: text') := by
  intro position rest tail hrest htail
  rw [List.length_append, ← Nat.add_assoc] at htail
  obtain ⟨tokens', hscan', hproperty'⟩ := hsecond _ rest tail hrest htail
  obtain ⟨tokens, hscan, hproperty⟩ :=
    hfirst position (c :: (text' ++ rest)) _ (separates_cons hc _) hscan'
  refine ⟨tokens ++ tokens', ?_, hjoin tokens tokens' hproperty hproperty'⟩
  rw [List.append_assoc, List.append_assoc]
  exact hscan

theorem cons_blank {c : Char} (hblank : isBlank c = true) (hscans : ScansTo property text) :
    ScansTo property (c :: text) := by
  intro position rest tail hrest htail
  rw [List.length_cons, Nat.add_comm text.length, ← Nat.add_assoc] at htail
  obtain ⟨tokens, hscan, hproperty⟩ := hscans (position + 1) rest tail hrest htail
  refine ⟨tokens, ?_, hproperty⟩
  rw [List.cons_append, scanFrom_blank hblank]
  exact hscan

theorem cons_mark {c : Char} {kind : TokenKind} (hscans : ScansTo property text)
    (hblank : isBlank c = false) (hlexeme : ∀ rest, lexeme? (c :: rest) = some (kind, [c]))
    (hjoin : ∀ position tokens, property tokens →
      joined ({ kind, text := String.ofList [c], position } :: tokens)) :
    ScansTo joined (c :: text) := by
  intro position rest tail hrest htail
  rw [List.length_cons, Nat.add_comm text.length, ← Nat.add_assoc] at htail
  obtain ⟨tokens, hscan, hproperty⟩ := hscans (position + 1) rest tail hrest htail
  refine ⟨_, ?_, hjoin position tokens hproperty⟩
  have hmark : lexeme? (c :: ([] ++ (text ++ rest))) = some (kind, [c]) := hlexeme _
  exact scanFrom_lexeme hblank hmark hscan

theorem append_mark {c : Char} {kind : TokenKind} (hfirst : ScansTo property text)
    (hsecond : ScansTo property' text') (hword : isWordChar c = false)
    (hblank : isBlank c = false) (hlexeme : ∀ rest, lexeme? (c :: rest) = some (kind, [c]))
    (hjoin : ∀ tokens mark tokens', property tokens → mark.kind = kind → property' tokens' →
      joined (tokens ++ mark :: tokens')) :
    ScansTo joined (text ++ c :: text') := by
  have hmarked : ScansTo (fun tokens => ∃ (mark : Token) (others : List Token),
      tokens = mark :: others ∧ mark.kind = kind ∧ property' others) (c :: text') :=
    hsecond.cons_mark hblank hlexeme fun _ others hothers => ⟨_, others, rfl, rfl, hothers⟩
  refine hfirst.append hmarked hword ?_
  rintro tokens _ htokens ⟨mark, others, rfl, hkind, hothers⟩
  exact hjoin tokens mark others htokens hkind hothers

end ScansTo

theorem scansTo_nil : ScansTo (· = []) [] := by
  intro position rest tail _ htail
  exact ⟨[], htail, rfl⟩

theorem scansTo_lexeme {property : List Token → Prop} {kind : TokenKind} {c : Char}
    {word : List Char} (hblank : isBlank c = false)
    (hlexeme : ∀ rest, Separates rest → lexeme? (c :: (word ++ rest)) = some (kind, c :: word))
    (hproperty : ∀ position, property [{ kind, text := String.ofList (c :: word), position }]) :
    ScansTo property (c :: word) := by
  intro position rest tail hrest htail
  exact ⟨[{ kind, text := String.ofList (c :: word), position }],
    scanFrom_lexeme hblank (hlexeme rest hrest) htail, hproperty position⟩

theorem scansTo_identifier {property : List Token → Prop} {name : String}
    (hname : IsIdentifier name)
    (hproperty : ∀ position, property
      [{ kind := if name = "v" then .disjunction else .identifier, text := name, position }]) :
    ScansTo property name.toList := by
  obtain ⟨c, word, hlist, hletter, hword⟩ := hname
  obtain rfl : name = String.ofList (c :: word) := by rw [← hlist, String.ofList_toList]
  rw [String.toList_ofList]
  refine scansTo_lexeme (isBlank_of_isWordChar (isWordChar_of_isLetter hletter)) ?_ hproperty
  intro rest hrest
  have htake : (word ++ rest).takeWhile isWordChar = word := by
    rw [List.takeWhile_append_of_pos hword, hrest.takeWhile_eq_nil, List.append_nil]
  have hv : String.ofList (c :: word) = "v" ↔ c :: word = ['v'] := by
    rw [← String.toList_inj, String.toList_ofList]
    rfl
  rw [lexeme?_letter hletter, htake]
  simp only [beq_iff_eq, hv]

end Deduction.Token
