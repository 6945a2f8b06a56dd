import Deduction.Formula.Compact
import Deduction.Proofs.Formula.Grammar
import Deduction.Proofs.Text.Replace

namespace Deduction

theorem Token.scanFrom_of_strict {lenient : Bool} {position skip : Nat} {text : List Char}
    {tokens : List Token} (hscan : scanFrom false position skip text = .ok tokens) :
    scanFrom lenient position skip text = .ok tokens := by
  induction text generalizing position skip tokens with
  | nil =>
      rw [scanFrom] at hscan ⊢
      exact hscan
  | cons c rest ih =>
      cases skip with
      | succ skip => exact ih hscan
      | zero =>
          rw [scanFrom] at hscan ⊢
          split at hscan
          · rename_i hblank
            rw [if_pos hblank]
            exact ih hscan
          · rename_i hblank
            rw [if_neg hblank]
            split at hscan
            · split at hscan
              · rename_i hrest
                rw [ih hrest]
                exact hscan
              · contradiction
            · contradiction

theorem Token.scanFrom_blanks {lenient : Bool} {text : List Char}
    (hblank : ∀ c ∈ text, Text.isBlank c = true) (position : Nat) :
    scanFrom lenient position 0 text = .ok [] := by
  induction text generalizing position with
  | nil => rw [scanFrom]
  | cons c rest ih =>
      rw [scanFrom, if_pos (hblank c List.mem_cons_self)]
      exact ih (fun d hd => hblank d (List.mem_cons_of_mem c hd)) (position + 1)

namespace Formula

theorem exists_tokens_of_parse {text : String} {formula : Formula}
    (hparse : parse false text = .ok formula) :
    ∃ tokens, Token.scan false (respell text.toList) = .ok tokens ∧
      Derives .equivalence tokens formula := by
  cases hscan : Token.scan false (respell text.toList) with
  | ok tokens =>
      rw [parse_eq_ofTokens hscan, ofTokens_eq_ok_iff] at hparse
      exact ⟨tokens, rfl, hparse⟩
  | error error =>
      rw [parse, parsePlain, hscan] at hparse
      contradiction

theorem parse_of_strict {text : String} {formula : Formula}
    (hparse : parse false text = .ok formula) (lenient : Bool) :
    parse lenient text = .ok formula := by
  obtain ⟨tokens, hscan, hderives⟩ := exists_tokens_of_parse hparse
  have hlenient : Token.scan lenient (respell text.toList) = .ok tokens :=
    Token.scanFrom_of_strict hscan
  have hread : parsePlain lenient (respell text.toList) = .ok formula := by
    rw [parsePlain, hlenient]
    exact ofTokens_of_derives lenient _ hderives
  rw [parse, hread]

theorem parse?_of_strict {text : String} {formula : Formula}
    (hparse : parse false text = .ok formula) (lenient : Bool) :
    parse? lenient text = some formula := by
  rw [parse?, parse_of_strict hparse lenient]
  rfl

theorem exists_nonblank_of_respell {text : String} {formula : Formula}
    (hparse : parse false text = .ok formula) :
    ∃ c ∈ respell text.toList, Text.isBlank c = false := by
  obtain ⟨tokens, hscan, hderives⟩ := exists_tokens_of_parse hparse
  by_cases hblank : ∀ c ∈ respell text.toList, Text.isBlank c = true
  · rw [Token.scan, Token.scanFrom_blanks hblank] at hscan
    exact absurd (Except.ok.inj hscan).symm hderives.ne_nil
  · simpa using hblank

theorem isBlankText_of_strict {text : String} {formula : Formula}
    (hparse : parse false text = .ok formula) : isBlankText text = false := by
  obtain ⟨c, hc, hsolid⟩ := exists_nonblank_of_respell hparse
  have hkept : c ∈ compact text.toList := List.mem_filter.mpr ⟨hc, by simp [hsolid]⟩
  rw [isBlankText, List.isEmpty_eq_false_iff]
  exact List.ne_nil_of_mem hkept

theorem isUntouched_of_isBlank {c : Char} (hblank : Text.isBlank c = true) :
    Text.IsUntouched spellings c :=
  Text.isUntouched_of_test (by decide) hblank

theorem exists_nonblank_of_strict {text : String} {formula : Formula}
    (hparse : parse false text = .ok formula) :
    ∃ c ∈ text.toList, Text.isBlank c = false := by
  obtain ⟨c, hc, hsolid⟩ := exists_nonblank_of_respell hparse
  by_cases hblank : ∀ d ∈ text.toList, Text.isBlank d = true
  · have hsame : respell text.toList = text.toList :=
      Text.replaceEach_of_untouched (by decide) fun d hd => isUntouched_of_isBlank (hblank d hd)
    rw [hsame] at hc
    exact ⟨c, hc, hsolid⟩
  · simpa using hblank

end Formula

end Deduction
