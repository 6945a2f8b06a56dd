import Deduction.Text.Replace

namespace Deduction.Text

/-- Applies the replacements of a table one after the other, each through the whole text. -/
def replaceEach (table : List (List Char × List Char)) (text : List Char) : List Char :=
  table.foldl (fun current entry => replaceAll entry.1 entry.2 current) text

theorem replaceEach_entry (entry : List Char × List Char) (table : List (List Char × List Char))
    (text : List Char) :
    replaceEach (entry :: table) text = replaceEach table (replaceAll entry.1 entry.2 text) := rfl

/-- A character that no pattern of a table holds. -/
def IsUntouched (table : List (List Char × List Char)) (c : Char) : Prop :=
  ∀ entry ∈ table, c ∉ entry.1

instance (table : List (List Char × List Char)) (c : Char) : Decidable (IsUntouched table c) :=
  inferInstanceAs (Decidable (∀ entry ∈ table, c ∉ entry.1))

theorem isUntouched_of_test {table : List (List Char × List Char)} {test : Char → Bool}
    (hnone : (table.all fun entry => entry.1.all fun d => !test d) = true) {c : Char}
    (hc : test c = true) : IsUntouched table c := by
  simp only [List.all_eq_true, Bool.not_eq_true'] at hnone
  intro entry hentry hmem
  rw [hnone entry hentry c hmem] at hc
  contradiction

theorem isPrefixOf_append_cons {pattern : List Char} {c : Char} (hc : c ∉ pattern)
    (before after : List Char) :
    pattern.isPrefixOf (before ++ c :: after) = pattern.isPrefixOf before := by
  induction pattern generalizing before with
  | nil => simp
  | cons first rest ih =>
      rw [List.mem_cons, not_or] at hc
      cases before with
      | nil => simp [List.isPrefixOf, Ne.symm hc.1]
      | cons d before => simp [List.isPrefixOf, ih hc.2 before]

theorem replaceFrom_append_cons {pattern replacement : List Char} (hsome : pattern ≠ [])
    {c : Char} (hc : c ∉ pattern) (after : List Char) {skip : Nat} {before : List Char}
    (hskip : skip ≤ before.length) :
    replaceFrom pattern replacement skip (before ++ c :: after) =
      replaceFrom pattern replacement skip before ++
        c :: replaceFrom pattern replacement 0 after := by
  induction before generalizing skip with
  | nil =>
      obtain rfl : skip = 0 := Nat.le_zero.mp hskip
      have hbegins : pattern.isPrefixOf (c :: after) = false := by
        rw [← List.nil_append (c :: after), isPrefixOf_append_cons hc]
        cases pattern with
        | nil => exact absurd rfl hsome
        | cons first rest => rfl
      simp [replaceFrom, hbegins]
  | cons d before ih =>
      cases skip with
      | succ skip =>
          rw [List.cons_append, replaceFrom, replaceFrom]
          exact ih (Nat.le_of_succ_le_succ hskip)
      | zero =>
          have hcut := isPrefixOf_append_cons hc (d :: before) after
          rw [List.cons_append] at hcut ⊢
          rw [replaceFrom, replaceFrom, hcut]
          by_cases hbegins : pattern.isPrefixOf (d :: before) = true
          · have hlength := (List.isPrefixOf_iff_prefix.mp hbegins).length_le
            rw [List.length_cons] at hlength
            rw [if_pos hbegins, if_pos hbegins, ih (by omega), List.append_assoc]
          · rw [if_neg hbegins, if_neg hbegins, ih (Nat.zero_le _), List.cons_append]

theorem replaceAll_append_cons {pattern replacement : List Char} (hsome : pattern ≠ [])
    {c : Char} (hc : c ∉ pattern) (before after : List Char) :
    replaceAll pattern replacement (before ++ c :: after) =
      replaceAll pattern replacement before ++ c :: replaceAll pattern replacement after :=
  replaceFrom_append_cons hsome hc after (Nat.zero_le _)

theorem replaceAll_singleton_cons (c : Char) (replacement text : List Char) :
    replaceAll [c] replacement (c :: text) = replacement ++ replaceAll [c] replacement text := by
  simp [replaceAll, replaceFrom]

theorem replaceEach_append (table table' : List (List Char × List Char)) (text : List Char) :
    replaceEach (table ++ table') text = replaceEach table' (replaceEach table text) := by
  rw [replaceEach, List.foldl_append]
  rfl

/-- A text is replaced apart on the two sides of an untouched character. -/
theorem replaceEach_append_cons {table : List (List Char × List Char)}
    (hsome : ∀ entry ∈ table, entry.1 ≠ []) {c : Char} (hc : IsUntouched table c)
    (before after : List Char) :
    replaceEach table (before ++ c :: after) =
      replaceEach table before ++ c :: replaceEach table after := by
  induction table generalizing before after with
  | nil => rfl
  | cons entry table ih =>
      have hentry : entry ∈ entry :: table := List.mem_cons_self
      rw [replaceEach_entry, replaceAll_append_cons (hsome entry hentry) (hc entry hentry)]
      exact ih (fun other hother => hsome other (List.mem_cons_of_mem entry hother))
        (fun other hother => hc other (List.mem_cons_of_mem entry hother)) _ _

theorem replaceEach_nil (table : List (List Char × List Char)) : replaceEach table [] = [] := by
  induction table with
  | nil => rfl
  | cons entry table ih => exact ih

theorem replaceEach_cons {table : List (List Char × List Char)}
    (hsome : ∀ entry ∈ table, entry.1 ≠ []) {c : Char} (hc : IsUntouched table c)
    (after : List Char) : replaceEach table (c :: after) = c :: replaceEach table after := by
  rw [← List.nil_append (c :: after), replaceEach_append_cons hsome hc, replaceEach_nil,
    List.nil_append]

theorem replaceEach_of_untouched {table : List (List Char × List Char)}
    (hsome : ∀ entry ∈ table, entry.1 ≠ []) {text : List Char}
    (htext : ∀ c ∈ text, IsUntouched table c) : replaceEach table text = text := by
  induction text with
  | nil => exact replaceEach_nil table
  | cons c rest ih =>
      rw [replaceEach_cons hsome (htext c List.mem_cons_self),
        ih fun d hd => htext d (List.mem_cons_of_mem c hd)]

theorem not_isPrefixOf_of_notMem {pattern text : List Char} {c : Char} (hpattern : c ∈ pattern)
    (htext : c ∉ text) : pattern.isPrefixOf text = false := by
  rw [Bool.eq_false_iff, Ne, List.isPrefixOf_iff_prefix]
  exact fun hbegins => htext (hbegins.subset hpattern)

theorem replaceAll_of_notMem {pattern replacement text : List Char} {c : Char}
    (hpattern : c ∈ pattern) (htext : c ∉ text) : replaceAll pattern replacement text = text := by
  induction text with
  | nil => rfl
  | cons d rest ih =>
      have hrest := ih fun hmem => htext (List.mem_cons_of_mem d hmem)
      unfold replaceAll at hrest ⊢
      rw [replaceFrom, if_neg (by simp [not_isPrefixOf_of_notMem hpattern htext]), hrest]

theorem replaceAll_of_test {pattern replacement text : List Char} {test : Char → Bool}
    (hpattern : (pattern.any fun c => !test c) = true) (htext : ∀ c ∈ text, test c = true) :
    replaceAll pattern replacement text = text := by
  obtain ⟨c, hmem, hfails⟩ := List.any_eq_true.mp hpattern
  apply replaceAll_of_notMem hmem
  intro hmem
  rw [htext c hmem] at hfails
  contradiction

theorem replaceEach_of_test {table : List (List Char × List Char)} {test : Char → Bool}
    (htable : (table.all fun entry => entry.1.any fun c => !test c) = true) {text : List Char}
    (htext : ∀ c ∈ text, test c = true) : replaceEach table text = text := by
  induction table with
  | nil => rfl
  | cons entry table ih =>
      rw [List.all_cons, Bool.and_eq_true] at htable
      rw [replaceEach_entry, replaceAll_of_test htable.1 htext, ih htable.2]

section Occurrences

variable {pattern replacement : List Char}

theorem replaceAll_pattern_append (hsome : pattern ≠ []) (replacement rest : List Char) :
    replaceAll pattern replacement (pattern ++ rest) =
      replacement ++ replaceAll pattern replacement rest := by
  cases pattern with
  | nil => exact absurd rfl hsome
  | cons first others =>
      have hbegins : (first :: others).isPrefixOf (first :: (others ++ rest)) = true :=
        List.isPrefixOf_iff_prefix.mpr (List.prefix_append (first :: others) rest)
      rw [List.cons_append, replaceAll, replaceFrom, if_pos hbegins, List.length_cons,
        Nat.add_sub_cancel, replaceFrom_eq_drop, List.drop_left]
      rfl

theorem replaceAll_cons {c : Char} {rest : List Char}
    (hnone : pattern.isPrefixOf (c :: rest) = false) (replacement : List Char) :
    replaceAll pattern replacement (c :: rest) = c :: replaceAll pattern replacement rest := by
  rw [replaceAll, replaceFrom, if_neg (by simp [hnone])]
  rfl

/-- A text is made of occurrences of a pattern and of characters where none begins, in the order
in which a replacement meets them. -/
theorem occurrenceInduction (hsome : pattern ≠ []) {motive : List Char → Prop} (nil : motive [])
    (occurrence : ∀ rest, motive rest → motive (pattern ++ rest))
    (other : ∀ c rest, pattern.isPrefixOf (c :: rest) = false → motive rest → motive (c :: rest))
    (text : List Char) : motive text := by
  induction hlength : text.length using Nat.strongRecOn generalizing text with
  | ind length ih =>
      subst hlength
      cases text with
      | nil => exact nil
      | cons c rest =>
          by_cases hbegins : pattern.isPrefixOf (c :: rest) = true
          · obtain ⟨tail, htail⟩ := List.isPrefixOf_iff_prefix.mp hbegins
            have hshorter : tail.length < (c :: rest).length := by
              rw [← htail, List.length_append]
              exact Nat.lt_add_of_pos_left (List.length_pos_iff.mpr hsome)
            rw [← htail]
            exact occurrence tail (ih _ hshorter tail rfl)
          · exact other c rest (Bool.eq_false_iff.mpr hbegins)
              (ih _ (Nat.lt_succ_self _) rest rfl)

theorem length_replaceAll (hsome : pattern ≠ []) (hlength : pattern.length = replacement.length)
    (text : List Char) : (replaceAll pattern replacement text).length = text.length := by
  induction text using occurrenceInduction hsome with
  | nil => rfl
  | occurrence rest ih =>
      rw [replaceAll_pattern_append hsome, List.length_append, List.length_append, ih, hlength]
  | other c rest hnone ih => rw [replaceAll_cons hnone, List.length_cons, List.length_cons, ih]

theorem mem_replaceAll (hsome : pattern ≠ []) {c : Char} {text : List Char}
    (hc : c ∈ replaceAll pattern replacement text) : c ∈ replacement ∨ c ∈ text := by
  induction text using occurrenceInduction hsome with
  | nil => exact Or.inr hc
  | occurrence rest ih =>
      rw [replaceAll_pattern_append hsome, List.mem_append] at hc
      rcases hc with hc | hc
      · exact Or.inl hc
      · exact (ih hc).imp_right (List.mem_append_right pattern)
  | other d rest hnone ih =>
      rw [replaceAll_cons hnone, List.mem_cons] at hc
      rcases hc with rfl | hc
      · exact Or.inr List.mem_cons_self
      · exact (ih hc).imp_right (List.mem_cons_of_mem d)

/-- A text keeps its length if its characters pass a test and every replacement does so too, or
has a pattern that fails it somewhere. -/
theorem length_replaceEach {table : List (List Char × List Char)} {test : Char → Bool}
    (hsome : ∀ entry ∈ table, entry.1 ≠ [])
    (htable : (table.all fun entry => (entry.1.any fun c => !test c) ||
      (entry.1.length == entry.2.length && entry.2.all test)) = true)
    {text : List Char} (htext : ∀ c ∈ text, test c = true) :
    (replaceEach table text).length = text.length := by
  induction table generalizing text with
  | nil => rfl
  | cons entry table ih =>
      rw [List.all_cons, Bool.and_eq_true, Bool.or_eq_true, Bool.and_eq_true] at htable
      have hothers : ∀ other ∈ table, other.1 ≠ [] :=
        fun other hother => hsome other (List.mem_cons_of_mem entry hother)
      rw [replaceEach_entry]
      rcases htable.1 with hfails | ⟨hlength, hpasses⟩
      · rw [replaceAll_of_test hfails htext, ih hothers htable.2 htext]
      · have hentry := hsome entry List.mem_cons_self
        rw [ih hothers htable.2, length_replaceAll hentry (eq_of_beq hlength)]
        intro c hc
        rcases mem_replaceAll hentry hc with hc | hc
        · exact List.all_eq_true.mp hpasses c hc
        · exact htext c hc

theorem head?_of_replaceAll (hsome : pattern ≠ []) (hreplacement : replacement ≠ []) {c : Char}
    (hother : replacement.head? ≠ some c) {text : List Char}
    (hhead : (replaceAll pattern replacement text).head? = some c) : text.head? = some c := by
  induction text using occurrenceInduction hsome with
  | nil => exact hhead
  | occurrence rest _ =>
      rw [replaceAll_pattern_append hsome] at hhead
      cases replacement with
      | nil => exact absurd rfl hreplacement
      | cons d others => exact absurd hhead hother
  | other d rest hnone _ => rwa [replaceAll_cons hnone] at hhead

theorem replaceAll_eq_nil (hsome : pattern ≠ []) (hreplacement : replacement ≠ [])
    {text : List Char} (hnil : replaceAll pattern replacement text = []) : text = [] := by
  induction text using occurrenceInduction hsome with
  | nil => rfl
  | occurrence rest _ =>
      rw [replaceAll_pattern_append hsome] at hnil
      exact absurd (List.append_eq_nil_iff.mp hnil).1 hreplacement
  | other d rest hnone _ =>
      rw [replaceAll_cons hnone] at hnil
      contradiction

theorem getLast?_of_replaceAll (hsome : pattern ≠ []) (hreplacement : replacement ≠ []) {c : Char}
    (hother : replacement.getLast? ≠ some c) {text : List Char}
    (hlast : (replaceAll pattern replacement text).getLast? = some c) :
    text.getLast? = some c := by
  induction text using occurrenceInduction hsome with
  | nil => exact hlast
  | occurrence rest ih =>
      rw [replaceAll_pattern_append hsome, List.getLast?_append] at hlast
      rw [List.getLast?_append]
      cases hrest : (replaceAll pattern replacement rest).getLast? with
      | none =>
          rw [hrest] at hlast
          exact absurd hlast hother
      | some d =>
          rw [hrest] at hlast
          obtain rfl : d = c := Option.some.inj hlast
          rw [ih hrest]
          rfl
  | other d rest hnone ih =>
      rw [replaceAll_cons hnone] at hlast
      cases hrest : replaceAll pattern replacement rest with
      | nil =>
          rw [hrest] at hlast
          rwa [replaceAll_eq_nil hsome hreplacement hrest]
      | cons e tail =>
          rw [hrest, List.getLast?_cons_cons, ← hrest] at hlast
          have hlast' := ih hlast
          cases rest with
          | nil => cases hlast'
          | cons f rest => rwa [List.getLast?_cons_cons]

end Occurrences

/-- The place where two texts meet lies inside an occurrence of the pattern. -/
def Straddles (pattern before after : List Char) : Prop :=
  ∃ first second, first ≠ [] ∧ second ≠ [] ∧ pattern = first ++ second ∧
    first <:+ before ∧ second <+: after

section Seams

variable {pattern replacement before after : List Char}

theorem straddles_iff :
    Straddles pattern before after ↔
      ∃ n < pattern.length, n ≠ 0 ∧ pattern.take n <:+ before ∧ pattern.drop n <+: after := by
  constructor
  · rintro ⟨first, second, hfirst, hsecond, rfl, hbefore, hafter⟩
    have hsecond := List.length_pos_iff.mpr hsecond
    refine ⟨first.length, ?_, by simpa using hfirst, ?_, ?_⟩
    · rw [List.length_append]
      omega
    · rwa [List.take_left]
    · rwa [List.drop_left]
  · rintro ⟨n, hlength, hsome, hbefore, hafter⟩
    refine ⟨pattern.take n, pattern.drop n, ?_, ?_, (List.take_append_drop n pattern).symm,
      hbefore, hafter⟩
    · rw [Ne, List.take_eq_nil_iff]
      rintro (hnone | rfl)
      · exact hsome hnone
      · exact absurd hlength (Nat.not_lt_zero n)
    · rw [Ne, List.drop_eq_nil_iff]
      omega

instance (pattern before after : List Char) : Decidable (Straddles pattern before after) :=
  decidable_of_iff _ straddles_iff.symm

theorem Straddles.append_left (hstraddles : Straddles pattern before after) (text : List Char) :
    Straddles pattern (text ++ before) after := by
  obtain ⟨first, second, hfirst, hsecond, hpattern, hbefore, hafter⟩ := hstraddles
  exact ⟨first, second, hfirst, hsecond, hpattern,
    hbefore.trans (List.suffix_append text before), hafter⟩

theorem not_straddles_singleton (c : Char) (before after : List Char) :
    ¬ Straddles [c] before after := by
  rintro ⟨first, second, hfirst, hsecond, hpattern, -, -⟩
  have hlength := congrArg List.length hpattern
  have hfirst := List.length_pos_iff.mpr hfirst
  have hsecond := List.length_pos_iff.mpr hsecond
  rw [List.length_append, List.length_singleton] at hlength
  omega

/-- A pattern that begins a text begins its first part, or straddles the place where that ends. -/
theorem isPrefixOf_append (hsome : before ≠ []) (hseam : ¬ Straddles pattern before after) :
    pattern.isPrefixOf (before ++ after) = pattern.isPrefixOf before := by
  rw [Bool.eq_iff_iff, List.isPrefixOf_iff_prefix, List.isPrefixOf_iff_prefix]
  constructor
  · rintro ⟨rest, hrest⟩
    rcases List.append_eq_append_iff.mp hrest with ⟨part, hbefore, -⟩ | ⟨second, hpattern, hafter⟩
    · exact ⟨part, hbefore.symm⟩
    · by_cases hsecond : second = []
      · obtain rfl : pattern = before := by rw [hpattern, hsecond, List.append_nil]
        exact List.prefix_rfl
      · exact absurd ⟨before, second, hsome, hsecond, hpattern, List.suffix_rfl, rest, hafter.symm⟩
          hseam
  · exact fun hbegins => hbegins.trans (List.prefix_append before after)

/-- Two texts are replaced apart unless an occurrence straddles the place where they meet. -/
theorem replaceAll_append (hsome : pattern ≠ []) (hseam : ¬ Straddles pattern before after) :
    replaceAll pattern replacement (before ++ after) =
      replaceAll pattern replacement before ++ replaceAll pattern replacement after := by
  induction before using occurrenceInduction hsome with
  | nil => rfl
  | occurrence rest ih =>
      have hrest : ¬ Straddles pattern rest after :=
        fun hstraddles => hseam (hstraddles.append_left pattern)
      rw [List.append_assoc, replaceAll_pattern_append hsome, replaceAll_pattern_append hsome,
        ih hrest, List.append_assoc]
  | other c rest hnone ih =>
      have hrest : ¬ Straddles pattern rest after :=
        fun hstraddles => hseam (hstraddles.append_left [c])
      have hbegins := isPrefixOf_append (List.cons_ne_nil c rest) hseam
      rw [hnone, List.cons_append] at hbegins
      rw [List.cons_append, replaceAll_cons hbegins, replaceAll_cons hnone, ih hrest,
        List.cons_append]

theorem replaceAll_cons_of_head? (hsome : pattern ≠ []) {c : Char}
    (hhead : pattern.head? ≠ some c) (rest : List Char) :
    replaceAll pattern replacement (c :: rest) = c :: replaceAll pattern replacement rest := by
  apply replaceAll_cons
  cases pattern with
  | nil => exact absurd rfl hsome
  | cons first others =>
      have hother : first ≠ c := by simpa using hhead
      simp [List.isPrefixOf, hother]

theorem replaceAll_concat (hsome : pattern ≠ []) {c : Char} (hlast : pattern.getLast? ≠ some c)
    (text : List Char) :
    replaceAll pattern replacement (text ++ [c]) =
      replaceAll pattern replacement text ++ [c] := by
  have hends : ∀ first, pattern ≠ first ++ [c] := by
    rintro first rfl
    simp at hlast
  have hseam : ¬ Straddles pattern text [c] := by
    rintro ⟨first, second, -, hsecond, hpattern, -, hafter⟩
    rcases List.prefix_cons_iff.mp hafter with rfl | ⟨others, rfl, hothers⟩
    · exact hsecond rfl
    · rw [List.prefix_nil.mp hothers] at hpattern
      exact hends first hpattern
  have hnone : pattern.isPrefixOf [c] = false := by
    rw [Bool.eq_false_iff, Ne, List.isPrefixOf_iff_prefix, List.prefix_cons_iff]
    rintro (hnil | ⟨others, hpattern, hothers⟩)
    · exact hsome hnil
    · rw [List.prefix_nil.mp hothers] at hpattern
      exact hends [] hpattern
  rw [replaceAll_append hsome hseam, replaceAll_cons hnone]
  rfl

end Seams

/-- A piece of text lies over a character that has these texts on its two sides. -/
def LiesOver (piece before : List Char) (c : Char) (after : List Char) : Prop :=
  ∃ first second, piece = first ++ c :: second ∧ first <:+ before ∧ second <+: after

theorem LiesOver.append_left {piece before after : List Char} {c : Char}
    (hlies : LiesOver piece before c after) (text : List Char) :
    LiesOver piece (text ++ before) c after := by
  obtain ⟨first, second, hpiece, hbefore, hafter⟩ := hlies
  exact ⟨first, second, hpiece, hbefore.trans (List.suffix_append text before), hafter⟩

/-- A character that no replacement put there was there before, and what stands on its two sides
was replaced apart. -/
theorem exists_of_replaceAll_eq {pattern replacement : List Char} (hsome : pattern ≠ [])
    {text before after : List Char} {c : Char} (hkept : ¬ LiesOver replacement before c after)
    (heq : replaceAll pattern replacement text = before ++ c :: after) :
    ∃ source rest, text = source ++ c :: rest ∧ replaceAll pattern replacement source = before ∧
      replaceAll pattern replacement rest = after := by
  induction text using occurrenceInduction hsome generalizing before with
  | nil => exact absurd heq.symm (List.append_ne_nil_of_right_ne_nil _ (List.cons_ne_nil c after))
  | occurrence tail ih =>
      rw [replaceAll_pattern_append hsome] at heq
      rcases List.append_eq_append_iff.mp heq with ⟨middle, rfl, htail⟩ | ⟨inner, hinner, hrest⟩
      · obtain ⟨source, rest, rfl, hsource, hrest⟩ :=
          ih (fun hlies => hkept (hlies.append_left replacement)) htail
        refine ⟨pattern ++ source, rest, by rw [List.append_assoc], ?_, hrest⟩
        rw [replaceAll_pattern_append hsome, hsource]
      · cases inner with
        | nil =>
            rw [List.append_nil] at hinner
            obtain ⟨source, rest, rfl, hsource, hrest⟩ :=
              @ih [] (fun hlies => hkept (by simpa using hlies.append_left before))
                hrest.symm
            refine ⟨pattern ++ source, rest, by rw [List.append_assoc], ?_, hrest⟩
            rw [replaceAll_pattern_append hsome, hsource, List.append_nil, hinner]
        | cons d inner =>
            obtain ⟨rfl, rfl⟩ := List.cons.inj hrest
            exact absurd ⟨before, inner, hinner, List.suffix_rfl, List.prefix_append _ _⟩ hkept
  | other d tail hnone ih =>
      rw [replaceAll_cons hnone] at heq
      cases before with
      | nil =>
          obtain ⟨rfl, rfl⟩ := List.cons.inj heq
          exact ⟨[], tail, rfl, rfl, rfl⟩
      | cons e before =>
          obtain ⟨rfl, htail⟩ := List.cons.inj heq
          obtain ⟨source, rest, rfl, hsource, hrest⟩ :=
            ih (fun hlies => hkept (hlies.append_left [d])) htail
          refine ⟨d :: source, rest, rfl, ?_, hrest⟩
          have hshort : pattern.isPrefixOf (d :: source) = false := by
            rw [Bool.eq_false_iff, Ne, List.isPrefixOf_iff_prefix] at hnone ⊢
            exact fun hbegins => hnone (hbegins.trans (List.prefix_append (d :: source) _))
          rw [replaceAll_cons hshort, hsource]

end Deduction.Text
