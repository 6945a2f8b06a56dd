import Deduction.Rule.Naming
import Deduction.Proofs.Text.Replace
import Mathlib.Tactic.SplitIfs

/-!
Names of rules up to case, blanks and punctuation.

A name is restyled by changing the case of its letters and by putting blanks and punctuation
anywhere but inside an arrow. The arrows are the only symbols of more than one character, so a
symbol of the name stays whole, what was put in belongs to none, and the bare key is the same. The
blanks that are trimmed from a name are put in that way, too.
-/

namespace Deduction.Rule

open Text

def isPunctuation (c : Char) : Bool :=
  (33 ≤ c.toNat && c.toNat ≤ 47) || (58 ≤ c.toNat && c.toNat ≤ 64) ||
    (91 ≤ c.toNat && c.toNat ≤ 96) || (123 ≤ c.toNat && c.toNat ≤ 126)

/-- A blank, or punctuation that is in no symbol of a connective. -/
def isFiller (c : Char) : Bool :=
  isBlank c || (isPunctuation c && !(['&', '^', '~', '!', '-', '<', '>'].contains c))

/-- The symbols of more than one character. -/
def arrows : List (List Char) := [['-', '>'], ['<', '-', '>']]

/-- A text with letters in another case, and with fillers put in outside of arrows. -/
inductive Restyles (text : List Char) : List Char → Prop
  | same : Restyles text text
  | recase {before after : List Char} {c d : Char} (hletter : isLetter c = true)
      (hletter' : isLetter d = true) (hcase : c.toLower = d.toLower)
      (hrestyles : Restyles text (before ++ c :: after)) : Restyles text (before ++ d :: after)
  | insert {before after : List Char} {c : Char} (hfiller : isFiller c = true)
      (hseam : ∀ arrow ∈ arrows, ¬ Straddles arrow before after)
      (hrestyles : Restyles text (before ++ after)) : Restyles text (before ++ c :: after)

section Lowering

theorem lowerChar_of_isLetter {c : Char} (hletter : isLetter c = true) :
    lowerChar c = [c.toLower] := by
  have hascii : ∀ n < 128, isLetter (Char.ofNat n) = true →
      lowerChar (Char.ofNat n) = [(Char.ofNat n).toLower] := by decide
  have hsmall : c.toNat < 128 := by
    simp only [isLetter, Bool.or_eq_true, Bool.and_eq_true, decide_eq_true_eq] at hletter
    omega
  have hc := hascii c.toNat hsmall
  rw [Char.ofNat_toNat] at hc
  exact hc hletter

theorem lowerChar_ne_nil (c : Char) : lowerChar c ≠ [] := by
  unfold lowerChar
  split_ifs <;> simp

/-- A character that is its own lower case and nothing else's. -/
def IsCaseless (c : Char) : Prop :=
  lowerChar c = [c] ∧ ∀ d, c ∈ lowerChar d → d = c

theorem isCaseless_of_lt {c : Char} (hbelow : c.toNat < 65) : IsCaseless c := by
  have hupper : ∀ n < 91, 65 ≤ n → 65 ≤ (Char.ofNat (n + 32)).toNat := by decide
  constructor
  · have hother : c.toNat ≠ 0x212A ∧ c.toNat ≠ 0x130 ∧ ¬ 65 ≤ c.toNat := by omega
    simp [lowerChar, hother]
  · intro d hc
    unfold lowerChar at hc
    split_ifs at hc with hcase hkelvin hdotted
    · simp only [Bool.and_eq_true, decide_eq_true_eq] at hcase
      have hlow := hupper d.toNat (by omega) hcase.1
      rw [← List.mem_singleton.mp hc] at hlow
      omega
    · rw [List.mem_singleton.mp hc] at hbelow
      exact absurd hbelow (by decide)
    · simp only [List.mem_cons, List.not_mem_nil, or_false] at hc
      rcases hc with rfl | rfl <;> exact absurd hbelow (by decide)
    · exact (List.mem_singleton.mp hc).symm

/-- A text of characters that only come from themselves begins what is made of another text only if
it begins that text. -/
theorem prefix_of_prefix_flatMap {make : Char → List Char} (hmake : ∀ c, make c ≠ [])
    {piece text : List Char} (hpiece : ∀ c ∈ piece, make c = [c] ∧ ∀ d, c ∈ make d → d = c)
    (hbegins : piece <+: text.flatMap make) : piece <+: text := by
  induction piece generalizing text with
  | nil => exact List.nil_prefix
  | cons c piece ih =>
      cases text with
      | nil => exact absurd hbegins (by simp)
      | cons d text =>
          obtain ⟨hc, honly⟩ := hpiece c List.mem_cons_self
          rw [List.flatMap_cons] at hbegins
          have hd : d = c := by
            apply honly d
            cases hmade : make d with
            | nil => exact absurd hmade (hmake d)
            | cons e made =>
                rw [hmade, List.cons_append, List.cons_prefix_cons] at hbegins
                rw [hbegins.1]
                exact List.mem_cons_self
          rw [hd, hc, List.singleton_append, List.cons_prefix_cons] at hbegins
          rw [hd, List.cons_prefix_cons]
          exact ⟨rfl, ih (fun e he => hpiece e (List.mem_cons_of_mem c he)) hbegins.2⟩

theorem prefix_of_prefix_lower {piece text : List Char} (hpiece : ∀ c ∈ piece, IsCaseless c)
    (hbegins : piece <+: lower text) : piece <+: text :=
  prefix_of_prefix_flatMap lowerChar_ne_nil hpiece hbegins

theorem suffix_of_suffix_lower {piece text : List Char} (hpiece : ∀ c ∈ piece, IsCaseless c)
    (hends : piece <:+ lower text) : piece <:+ text := by
  rw [← List.reverse_prefix, lower, List.reverse_flatMap] at hends
  rw [← List.reverse_prefix]
  apply prefix_of_prefix_flatMap _ _ hends
  · intro c
    simpa using lowerChar_ne_nil c
  · intro c hc
    obtain ⟨hself, honly⟩ := hpiece c (List.mem_reverse.mp hc)
    simpa [hself] using honly

theorem straddles_of_lower {arrow before after : List Char} (harrow : arrow ∈ arrows)
    (hstraddles : Straddles arrow (lower before) (lower after)) :
    Straddles arrow before after := by
  have hcaseless : ∀ c ∈ arrow, IsCaseless c := by
    have hall : (arrows.all fun arrow => arrow.all fun c => decide (c.toNat < 65)) = true := by
      decide
    intro c hc
    exact isCaseless_of_lt (of_decide_eq_true
      (List.all_eq_true.mp (List.all_eq_true.mp hall arrow harrow) c hc))
  obtain ⟨first, second, hfirst, hsecond, rfl, hbefore, hafter⟩ := hstraddles
  refine ⟨first, second, hfirst, hsecond, rfl, ?_, ?_⟩
  · exact suffix_of_suffix_lower (fun c hc => hcaseless c (List.mem_append_left second hc)) hbefore
  · exact prefix_of_prefix_lower (fun c hc => hcaseless c (List.mem_append_right first hc)) hafter

end Lowering

section Symbols

theorem straddles_pair_iff {x y : Char} {before after : List Char} :
    Straddles [x, y] before after ↔ before.getLast? = some x ∧ after.head? = some y := by
  constructor
  · rintro ⟨first, second, hfirst, hsecond, hpair, ⟨start, rfl⟩, ⟨rest, rfl⟩⟩
    obtain ⟨rfl, rfl⟩ : first = [x] ∧ second = [y] := by
      rcases first with _ | ⟨c, _ | ⟨d, first⟩⟩
      · exact absurd rfl hfirst
      · simpa using hpair.symm
      · simp [hsecond] at hpair
    simp
  · rintro ⟨hlast, hhead⟩
    obtain ⟨start, rfl⟩ := List.getLast?_eq_some_iff.mp hlast
    obtain ⟨rest, rfl⟩ := List.head?_eq_some_iff.mp hhead
    exact ⟨[x], [y], by simp, by simp, rfl, List.suffix_append _ _, rest, rfl⟩

/-- A symbol of one character, or the pair, with a word that brings no half of the pair to either
end of a text. -/
def KeepsApart (x y : Char) (entry : List Char × List Char) : Prop :=
  (entry.1.length = 1 ∨ entry.1 = [x, y]) ∧ entry.2 ≠ [] ∧ entry.2.head? ≠ some y ∧
    entry.2.getLast? ≠ some x

instance (x y : Char) (entry : List Char × List Char) : Decidable (KeepsApart x y entry) :=
  inferInstanceAs (Decidable (_ ∧ _ ∧ _ ∧ _))

/-- Two texts are replaced apart by a table if the pair does not straddle the place where they
meet. -/
theorem replaceEach_append_of_keepsApart {x y : Char} {table : List (List Char × List Char)}
    (htable : ∀ entry ∈ table, KeepsApart x y entry) {before after : List Char}
    (hseam : ¬ Straddles [x, y] before after) :
    replaceEach table (before ++ after) = replaceEach table before ++ replaceEach table after := by
  induction table generalizing before after with
  | nil => rfl
  | cons entry table ih =>
      obtain ⟨hshort, hword, hhead, hlast⟩ := htable entry List.mem_cons_self
      have hsome : entry.1 ≠ [] := by
        rintro hnil
        simp [hnil] at hshort
      have hsymbol : ¬ Straddles entry.1 before after := by
        rcases hshort with hsingle | hpair
        · obtain ⟨c, hc⟩ := List.length_eq_one_iff.mp hsingle
          rw [hc]
          exact not_straddles_singleton c before after
        · rwa [hpair]
      have hrest : ¬ Straddles [x, y] (replaceAll entry.1 entry.2 before)
          (replaceAll entry.1 entry.2 after) := by
        rw [straddles_pair_iff] at hseam ⊢
        rintro ⟨hends, hbegins⟩
        exact hseam ⟨getLast?_of_replaceAll hsome hword hlast hends,
          head?_of_replaceAll hsome hword hhead hbegins⟩
      rw [replaceEach_entry, replaceAll_append hsome hsymbol]
      exact ih (fun other hother => htable other (List.mem_cons_of_mem entry hother)) hrest

theorem spellOut_eq (text : List Char) :
    spellOut text = replaceEach symbolWords.tail
      (replaceAll ['<', '-', '>'] ['b', 'i', 'c', 'o', 'n', 'd'] text) := by
  have htable : symbolWords =
      (['<', '-', '>'], ['b', 'i', 'c', 'o', 'n', 'd']) :: symbolWords.tail := by decide +kernel
  calc spellOut text
      = replaceEach symbolWords text := rfl
    _ = replaceEach ((['<', '-', '>'], ['b', 'i', 'c', 'o', 'n', 'd']) :: symbolWords.tail) text :=
        congrArg (replaceEach · text) htable
    _ = _ := replaceEach_entry _ _ _

theorem keepsApart_of_mem_tail : ∀ entry ∈ symbolWords.tail, KeepsApart '-' '>' entry := by
  decide +kernel

theorem spellOut_append {before after : List Char}
    (hseam : ∀ arrow ∈ arrows, ¬ Straddles arrow before after) :
    spellOut (before ++ after) = spellOut before ++ spellOut after := by
  have hlong : ¬ Straddles ['<', '-', '>'] before after := hseam _ (by simp [arrows])
  have hshort : ¬ Straddles ['-', '>'] before after := hseam _ (by simp [arrows])
  have hrest : ¬ Straddles ['-', '>']
      (replaceAll ['<', '-', '>'] ['b', 'i', 'c', 'o', 'n', 'd'] before)
      (replaceAll ['<', '-', '>'] ['b', 'i', 'c', 'o', 'n', 'd'] after) := by
    rw [straddles_pair_iff] at hshort ⊢
    rintro ⟨hends, hbegins⟩
    exact hshort ⟨getLast?_of_replaceAll (by simp) (by simp) (by simp) hends,
      head?_of_replaceAll (by simp) (by simp) (by simp) hbegins⟩
  rw [spellOut_eq, spellOut_eq, spellOut_eq, replaceAll_append (by simp) hlong]
  exact replaceEach_append_of_keepsApart keepsApart_of_mem_tail hrest

theorem spellOut_append_cons {c : Char} (hfiller : isFiller c = true) (before after : List Char) :
    spellOut (before ++ c :: after) = spellOut before ++ c :: spellOut after := by
  have huntouched : IsUntouched symbolWords c := isUntouched_of_test (by decide +kernel) hfiller
  exact replaceEach_append_cons (by decide +kernel) huntouched before after

end Symbols

section Keys

/-- The letters and digits of a name in lower case, with words for its symbols. -/
def bareKey (text : List Char) : List Char :=
  (spellOut (lower text)).filter isKeyChar

variable {text before after : List Char} {c d : Char}

theorem isFiller_cases (hfiller : isFiller c = true) :
    isLetter c = false ∧ isDigit c = false ∧ c.toNat ≠ 0x212A ∧ c.toNat ≠ 0x130 := by
  simp only [isFiller, isBlank, isPunctuation, Bool.or_eq_true, Bool.and_eq_true,
    decide_eq_true_eq, beq_iff_eq] at hfiller
  simp only [isLetter, isDigit, Bool.or_eq_false_iff, Bool.and_eq_false_iff,
    decide_eq_false_iff_not]
  omega

theorem lowerChar_of_isFiller (hfiller : isFiller c = true) : lowerChar c = [c] := by
  obtain ⟨hletter, -, hkelvin, hdotted⟩ := isFiller_cases hfiller
  have hupper : (65 ≤ c.toNat && c.toNat ≤ 90) = false := (Bool.or_eq_false_iff.mp hletter).1
  simp [lowerChar, hupper, hkelvin, hdotted]

theorem isKeyChar_of_isFiller (hfiller : isFiller c = true) : isKeyChar c = false := by
  obtain ⟨hletter, hdigit, -, -⟩ := isFiller_cases hfiller
  rw [isKeyChar, (Bool.or_eq_false_iff.mp hletter).2, hdigit]
  rfl

theorem bareKey_insert (hfiller : isFiller c = true)
    (hseam : ∀ arrow ∈ arrows, ¬ Straddles arrow before after) :
    bareKey (before ++ c :: after) = bareKey (before ++ after) := by
  have hlowered : ∀ arrow ∈ arrows, ¬ Straddles arrow (lower before) (lower after) :=
    fun arrow harrow hstraddles => hseam arrow harrow (straddles_of_lower harrow hstraddles)
  have hcons : lower (before ++ c :: after) = lower before ++ c :: lower after := by
    simp [lower, lowerChar_of_isFiller hfiller]
  have hjoined : lower (before ++ after) = lower before ++ lower after := List.flatMap_append
  rw [bareKey, bareKey, hcons, hjoined, spellOut_append_cons hfiller, spellOut_append hlowered,
    List.filter_append, List.filter_append, List.filter_cons_of_neg]
  simp [isKeyChar_of_isFiller hfiller]

theorem bareKey_recase (hletter : isLetter c = true) (hletter' : isLetter d = true)
    (hcase : c.toLower = d.toLower) :
    bareKey (before ++ d :: after) = bareKey (before ++ c :: after) := by
  have hlower : lowerChar c = lowerChar d := by
    rw [lowerChar_of_isLetter hletter, lowerChar_of_isLetter hletter', hcase]
  simp only [bareKey, lower, List.flatMap_append, List.flatMap_cons, hlower]

theorem bareKey_of_restyles {text' : List Char} (hrestyles : Restyles text text') :
    bareKey text' = bareKey text := by
  induction hrestyles with
  | same => rfl
  | recase hletter hletter' hcase _ ih => rw [bareKey_recase hletter hletter' hcase, ih]
  | insert hfiller hseam _ ih => rw [bareKey_insert hfiller hseam, ih]

theorem Restyles.append_left {text' fillers : List Char} (hrestyles : Restyles text text')
    (hfillers : ∀ c ∈ fillers, isFiller c = true) : Restyles text (fillers ++ text') := by
  induction fillers with
  | nil => exact hrestyles
  | cons c fillers ih =>
      have hseam : ∀ arrow ∈ arrows, ¬ Straddles arrow [] (fillers ++ text') := by
        rintro arrow - ⟨first, second, hfirst, -, -, hbefore, -⟩
        exact hfirst (List.suffix_nil.mp hbefore)
      have hrest := ih fun d hd => hfillers d (List.mem_cons_of_mem c hd)
      exact .insert (hfillers c List.mem_cons_self) hseam hrest

theorem Restyles.append_right {text' fillers : List Char} (hrestyles : Restyles text text')
    (hfillers : ∀ c ∈ fillers, isFiller c = true) : Restyles text (text' ++ fillers) := by
  induction fillers generalizing text' with
  | nil => rwa [List.append_nil]
  | cons c fillers ih =>
      have hseam : ∀ arrow ∈ arrows, ¬ Straddles arrow text' [] := by
        rintro arrow - ⟨first, second, -, hsecond, -, -, hafter⟩
        exact hsecond (List.prefix_nil.mp hafter)
      have hfirst : Restyles text (text' ++ [c]) :=
        .insert (hfillers c List.mem_cons_self) hseam (by rwa [List.append_nil])
      rw [List.append_cons]
      exact ih hfirst fun d hd => hfillers d (List.mem_cons_of_mem c hd)

theorem restyles_trim (text : List Char) : Restyles (trim text) text := by
  have hblanks : ∀ blanks : List Char, ∀ c ∈ blanks.takeWhile isBlank, isFiller c = true := by
    intro blanks c hc
    simp [isFiller, List.all_eq_true.mp List.all_takeWhile c hc]
  have hright : text.dropWhile isBlank =
      trim text ++ ((text.dropWhile isBlank).reverse.takeWhile isBlank).reverse := by
    rw [trim, ← List.reverse_append, List.takeWhile_append_dropWhile, List.reverse_reverse]
  have hrest : Restyles (trim text) (text.dropWhile isBlank) := by
    rw [hright]
    exact Restyles.same.append_right fun c hc => hblanks _ c (List.mem_reverse.mp hc)
  have hwhole := hrest.append_left (hblanks text)
  rwa [List.takeWhile_append_dropWhile] at hwhole

theorem nameKey_of_restyles {text text' : String}
    (hrestyles : Restyles text.toList text'.toList) : nameKey text' = nameKey text := by
  have hkey : bareKey (trim text'.toList) = bareKey (trim text.toList) := by
    rw [← bareKey_of_restyles (restyles_trim text'.toList), bareKey_of_restyles hrestyles,
      bareKey_of_restyles (restyles_trim text.toList)]
  unfold bareKey at hkey
  unfold nameKey
  rw [hkey]

end Keys

theorem parse?_name (rule : Rule) : parse? rule.name = some rule := by
  have hnames : (all.all fun rule => parse? rule.name == some rule) = true := by decide +kernel
  exact beq_iff_eq.mp (List.all_eq_true.mp hnames rule rule.mem_all)

/-- A restyled name means the same rule, so every rule is named by its display name in any style. -/
theorem parse?_of_restyles {text text' : String}
    (hrestyles : Restyles text.toList text'.toList) :
    parse? text' = parse? text ∧ ∀ rule : Rule, text = rule.name → parse? text' = some rule := by
  have hsame : parse? text' = parse? text := by
    rw [parse?, parse?, nameKey_of_restyles hrestyles]
  refine ⟨hsame, ?_⟩
  rintro rule rfl
  rw [hsame, parse?_name]

theorem loose_arrow_is_named : parse? "<-> [e" = some .biconditionalElim := by
  have hrecased : Restyles "<->E".toList (['<', '-', '>'] ++ 'e' :: []) :=
    .recase (show isLetter 'E' = true by decide) (by decide) (by decide) .same
  have hbracket : Restyles "<->E".toList (['<', '-', '>'] ++ '[' :: ['e']) :=
    .insert (by decide) (by decide) hrecased
  have hblank : Restyles "<->E".toList "<-> [e".toList :=
    .insert (show isFiller ' ' = true by decide)
      (show ∀ arrow ∈ arrows, ¬ Straddles arrow ['<', '-', '>'] ['[', 'e'] by decide) hbracket
  rw [(parse?_of_restyles hblank).1]
  decide +kernel

end Deduction.Rule
