import Deduction.Proofs.Formula.Lexeme

namespace Deduction.Token

open Text

/-- The position right after a token. -/
def stop (token : Token) : Nat :=
  token.position + token.text.toList.length

/-- The tokens of a text from one position to another. -/
structure Covers (text : List Char) (start finish : Nat) (tokens : List Token) : Prop where
  spelled : ∀ token ∈ tokens, token.IsSpelled
  slice : ∀ token ∈ tokens, token.text.toList <+: text.drop token.position
  within : ∀ token ∈ tokens, start ≤ token.position ∧ token.stop ≤ finish
  apart : tokens.Pairwise fun token next => token.stop ≤ next.position
  maximal : ∀ token ∈ tokens, StopsBefore token.kind (text.drop token.stop)
  blank : ∀ i c, start ≤ i → i < finish → text[i]? = some c →
    (∀ token ∈ tokens, ¬ (token.position ≤ i ∧ i < token.stop)) → isBlank c = true

theorem IsSpelled.position_lt_stop {token : Token} (hspelled : token.IsSpelled) :
    token.position < token.stop := by
  have hlength := List.length_pos_iff.mpr (IsLexeme.ne_nil hspelled)
  rw [stop]
  omega

namespace Covers

variable {text : List Char} {start finish : Nat} {token : Token} {tokens : List Token}

theorem none (text : List Char) (start : Nat) : Covers text start start [] where
  spelled := by simp
  slice := by simp
  within := by simp
  apart := .nil
  maximal := by simp
  blank := by
    intro i c hstart hfinish
    omega

theorem cons_blank {c : Char} (hc : text[start]? = some c) (hblank : isBlank c = true)
    (hcovers : Covers text (start + 1) finish tokens) : Covers text start finish tokens where
  spelled := hcovers.spelled
  slice := hcovers.slice
  within := by
    intro token htoken
    have hwithin := hcovers.within token htoken
    omega
  apart := hcovers.apart
  maximal := hcovers.maximal
  blank := by
    intro i d hstart hfinish hd hnone
    by_cases hi : i = start
    · subst hi
      obtain rfl : c = d := Option.some.inj (hc.symm.trans hd)
      exact hblank
    · exact hcovers.blank i d (by omega) hfinish hd hnone

theorem cons_token (hstart : token.position = start) (hspelled : token.IsSpelled)
    (hslice : token.text.toList <+: text.drop token.position)
    (hmaximal : StopsBefore token.kind (text.drop token.stop)) (hstop : token.stop ≤ finish)
    (hcovers : Covers text token.stop finish tokens) :
    Covers text start finish (token :: tokens) where
  spelled := List.forall_mem_cons.mpr ⟨hspelled, hcovers.spelled⟩
  slice := List.forall_mem_cons.mpr ⟨hslice, hcovers.slice⟩
  within := by
    rw [List.forall_mem_cons]
    refine ⟨⟨Nat.le_of_eq hstart.symm, hstop⟩, ?_⟩
    intro next hnext
    have hwithin := hcovers.within next hnext
    have hlength := hspelled.position_lt_stop
    omega
  apart := List.pairwise_cons.mpr ⟨fun next hnext => (hcovers.within next hnext).1, hcovers.apart⟩
  maximal := List.forall_mem_cons.mpr ⟨hmaximal, hcovers.maximal⟩
  blank := by
    intro i c hstart hfinish hc hnone
    rw [List.forall_mem_cons] at hnone
    exact hcovers.blank i c (by omega) hfinish hc hnone.2

theorem of_later (hcovers : Covers text start finish tokens)
    (hlater : ∀ token ∈ tokens, start < token.position) :
    Covers text (start + 1) finish tokens where
  spelled := hcovers.spelled
  slice := hcovers.slice
  within := fun token htoken => ⟨hlater token htoken, (hcovers.within token htoken).2⟩
  apart := hcovers.apart
  maximal := hcovers.maximal
  blank := fun i c hstart => hcovers.blank i c (by omega)

theorem tail (hcovers : Covers text start finish (token :: tokens)) :
    Covers text token.stop finish tokens where
  spelled := (List.forall_mem_cons.mp hcovers.spelled).2
  slice := (List.forall_mem_cons.mp hcovers.slice).2
  within := by
    intro next hnext
    exact ⟨(List.pairwise_cons.mp hcovers.apart).1 next hnext,
      (hcovers.within next (List.mem_cons_of_mem token hnext)).2⟩
  apart := (List.pairwise_cons.mp hcovers.apart).2
  maximal := (List.forall_mem_cons.mp hcovers.maximal).2
  blank := by
    intro i c hstart hfinish hc hnone
    have hwithin := hcovers.within token List.mem_cons_self
    have hlength := (hcovers.spelled token List.mem_cons_self).position_lt_stop
    refine hcovers.blank i c (by omega) hfinish hc (List.forall_mem_cons.mpr ⟨?_, hnone⟩)
    omega

theorem eq_nil (hcovers : Covers text start start tokens) : tokens = [] := by
  cases tokens with
  | nil => rfl
  | cons token tokens =>
      have hwithin := hcovers.within token List.mem_cons_self
      have hlength := (hcovers.spelled token List.mem_cons_self).position_lt_stop
      omega

theorem forall_lt (hcovers : Covers text start finish tokens)
    (hhead : ∀ token ∈ tokens.head?, token.position ≠ start) :
    ∀ token ∈ tokens, start < token.position := by
  cases tokens with
  | nil => simp
  | cons token tokens =>
      have hwithin := hcovers.within token List.mem_cons_self
      have hlength := (hcovers.spelled token List.mem_cons_self).position_lt_stop
      have hother := hhead token rfl
      rw [List.forall_mem_cons]
      refine ⟨by omega, ?_⟩
      intro next hnext
      have hapart := (List.pairwise_cons.mp hcovers.apart).1 next hnext
      omega

theorem increasing (hcovers : Covers text start finish tokens) :
    tokens.Pairwise fun token next => token.position < next.position := by
  refine hcovers.apart.imp_of_mem ?_
  intro token next htoken _ hapart
  have hlength := (hcovers.spelled token htoken).position_lt_stop
  omega

end Covers

/-- No word runs on over the place where two texts meet. -/
def Meets (before after : List Char) : Prop :=
  (∃ c ∈ before.getLast?, isWordChar c = true) → Separates after

section Meets

variable {before after word rest : List Char} {kind : TokenKind}

theorem meets_nil_left (after : List Char) : Meets [] after := by
  simp [Meets]

theorem meets_nil_right (before : List Char) : Meets before [] :=
  fun _ => separates_nil

theorem Meets.of_append (hmeets : Meets (before ++ rest) after) : Meets rest after := by
  rintro ⟨c, hc, hword⟩
  refine hmeets ⟨c, ?_, hword⟩
  rw [List.getLast?_append, Option.mem_def.mp hc]
  rfl

theorem Meets.tail {c : Char} (hmeets : Meets (c :: rest) after) : Meets rest after := by
  rw [← List.singleton_append] at hmeets
  exact hmeets.of_append

theorem Meets.cons_blank {c : Char} (hblank : isBlank c = true) (hmeets : Meets rest after) :
    Meets (c :: rest) after := by
  rintro ⟨d, hd, hword⟩
  cases rest with
  | nil =>
      obtain rfl : c = d := by simpa using hd
      rw [isBlank_of_isWordChar hword] at hblank
      contradiction
  | cons e rest => exact hmeets ⟨d, by rwa [List.getLast?_cons_cons] at hd, hword⟩

theorem IsLexeme.isWord_iff (hword : IsLexeme kind word) :
    kind = .identifier ∨ kind = .disjunction ↔ ∃ c ∈ word.getLast?, isWordChar c = true := by
  cases hword with
  | sign hsign =>
      cases kind with
      | identifier => contradiction
      | finish => contradiction
      | _ =>
          obtain rfl := Option.some.inj hsign
          simp [isWordChar, isLetter, isDigit]
  | @identifier first tail hletter htail hother =>
      have hall := (IsLexeme.identifier hletter htail hother).forall_isWordChar
      obtain ⟨c, hc⟩ := Option.ne_none_iff_exists'.mp
        (List.getLast?_eq_none_iff.not.mpr (List.cons_ne_nil first tail))
      exact iff_of_true (Or.inl rfl) ⟨c, hc, hall c (List.mem_of_getLast? hc)⟩

theorem StopsBefore.append (hword : IsLexeme kind word) (hstops : StopsBefore kind rest)
    (hmeets : Meets (word ++ rest) after) : StopsBefore kind (rest ++ after) := by
  intro hkind
  cases rest with
  | nil =>
      rw [List.append_nil] at hmeets
      exact hmeets (hword.isWord_iff.mp hkind)
  | cons c rest => exact separates_cons (hstops hkind c rfl) _

theorem StopsBefore.of_append (hstops : StopsBefore kind (rest ++ after)) :
    StopsBefore kind rest :=
  fun hkind => (hstops hkind).of_append

theorem Meets.append_left (hword : IsLexeme kind word) (hstops : StopsBefore kind (rest ++ after))
    (hmeets : Meets rest after) : Meets (word ++ rest) after := by
  rintro ⟨c, hc, hwordChar⟩
  cases rest with
  | nil =>
      rw [List.append_nil] at hc
      exact hstops (hword.isWord_iff.mpr ⟨c, hc, hwordChar⟩)
  | cons d rest =>
      rw [List.getLast?_append_of_ne_nil _ (List.cons_ne_nil d rest)] at hc
      exact hmeets ⟨c, hc, hwordChar⟩

end Meets

theorem drop_eq_cons {text rest : List Char} {n : Nat} {c : Char}
    (hdrop : text.drop n = c :: rest) : text[n]? = some c ∧ text.drop (n + 1) = rest := by
  constructor
  · rw [← List.head?_drop, hdrop, List.head?_cons]
  · rw [← List.drop_drop, hdrop, List.drop_one, List.tail_cons]

theorem IsSpelled.spells {token : Token} (hspelled : token.IsSpelled) {rest : List Char}
    {tokens : List Token} (hstops : StopsBefore token.kind rest)
    (hrest : Spells token.stop rest tokens) :
    Spells token.position (token.text.toList ++ rest) (token :: tokens) := by
  have hspells := Spells.token hspelled hstops hrest
  rwa [String.ofList_toList] at hspells

theorem Spells.covers {position : Nat} {text stretch after : List Char} {tokens : List Token}
    (hspells : Spells position stretch tokens) (hmeets : Meets stretch after)
    (htext : text.drop position = stretch ++ after) :
    Covers text position (position + stretch.length) tokens := by
  induction hspells with
  | @done position => exact Covers.none text position
  | @blank position c rest tokens hblank _ ih =>
      obtain ⟨hc, hrest⟩ := drop_eq_cons htext
      have hcovers := ih hmeets.tail hrest
      rw [Nat.add_assoc, Nat.add_comm 1] at hcovers
      exact hcovers.cons_blank hc hblank
  | @token position kind word rest tokens hword hstops _ ih =>
      have hrest : text.drop (position + word.length) = rest ++ after := by
        rw [← List.drop_drop, htext, List.append_assoc, List.drop_left]
      have hcovers := ih hmeets.of_append hrest
      rw [Nat.add_assoc, ← List.length_append] at hcovers
      have hstop : stop { kind, text := String.ofList word, position } =
          position + word.length := by
        rw [stop, String.toList_ofList]
      refine Covers.cons_token rfl ?_ ?_ ?_ ?_ ?_
      · rwa [IsSpelled, String.toList_ofList]
      · rw [String.toList_ofList, htext, List.append_assoc]
        exact List.prefix_append word _
      · rw [hstop, hrest]
        exact hstops.append hword hmeets
      · rw [hstop, List.length_append]
        omega
      · rwa [hstop]

theorem Covers.spells {start : Nat} {text stretch after : List Char} {tokens : List Token}
    (hcovers : Covers text start (start + stretch.length) tokens)
    (htext : text.drop start = stretch ++ after) :
    Spells start stretch tokens ∧ Meets stretch after := by
  induction hlength : stretch.length using Nat.strongRecOn generalizing start stretch tokens with
  | ind length ih =>
      subst hlength
      cases stretch with
      | nil =>
          obtain rfl := hcovers.eq_nil
          exact ⟨.done, meets_nil_left after⟩
      | cons c stretch =>
          by_cases hhead : ∀ token ∈ tokens.head?, token.position ≠ start
          · -- No token begins here, so the character is a blank before them.
            have hlater := hcovers.forall_lt hhead
            obtain ⟨hc, hrest⟩ := drop_eq_cons htext
            have hblank : isBlank c = true := by
              refine hcovers.blank start c (Nat.le_refl _) ?_ hc ?_
              · rw [List.length_cons]
                omega
              · intro token htoken
                have := hlater token htoken
                omega
            have hcovers' := hcovers.of_later hlater
            rw [List.length_cons, Nat.add_comm stretch.length, ← Nat.add_assoc] at hcovers'
            obtain ⟨hspells, hmeets⟩ :=
              ih stretch.length (Nat.lt_succ_self _) hcovers' hrest rfl
            exact ⟨.blank hblank hspells, hmeets.cons_blank hblank⟩
          · obtain ⟨token, others, rfl, rfl⟩ : ∃ token others, tokens = token :: others ∧
                token.position = start := by
              cases tokens with
              | nil => simp at hhead
              | cons token others => exact ⟨token, others, rfl, by simpa using hhead⟩
            have hmem : token ∈ token :: others := List.mem_cons_self
            have hspelled := hcovers.spelled token hmem
            have hslice := hcovers.slice token hmem
            have hwithin := (hcovers.within token hmem).2
            have hmaximal := hcovers.maximal token hmem
            obtain ⟨rest, hstretch⟩ : token.text.toList <+: c :: stretch := by
              rw [htext] at hslice
              refine List.prefix_of_prefix_length_le hslice (List.prefix_append _ after) ?_
              rw [stop] at hwithin
              omega
            have hrest : text.drop token.stop = rest ++ after := by
              rw [stop, ← List.drop_drop, htext, ← hstretch, List.append_assoc, List.drop_left]
            have hlength := List.length_pos_iff.mpr (IsLexeme.ne_nil hspelled)
            have hshorter := congrArg List.length hstretch
            rw [List.length_append] at hshorter
            have hcovers' := hcovers.tail
            rw [← hshorter, ← Nat.add_assoc, ← stop] at hcovers'
            obtain ⟨hspells, hmeets⟩ := ih rest.length (by omega) hcovers' hrest rfl
            rw [hrest] at hmaximal
            rw [← hstretch]
            exact ⟨hspelled.spells hmaximal.of_append hspells, hmeets.append_left hspelled hmaximal⟩

/-- A stretch of a text is covered by the tokens that it spells without a word that runs on. -/
theorem covers_iff_spells {start : Nat} {text stretch after : List Char} {tokens : List Token}
    (htext : text.drop start = stretch ++ after) :
    Covers text start (start + stretch.length) tokens ↔
      Spells start stretch tokens ∧ Meets stretch after :=
  ⟨fun hcovers => hcovers.spells htext, fun hspells => hspells.1.covers hspells.2 htext⟩

theorem covers_iff_spells_all {text : List Char} {tokens : List Token} :
    Covers text 0 text.length tokens ↔ Spells 0 text tokens := by
  have hiff : Covers text 0 (0 + text.length) tokens ↔ Spells 0 text tokens ∧ Meets text [] :=
    covers_iff_spells (List.append_nil text).symm
  rw [Nat.zero_add] at hiff
  exact hiff.trans (and_iff_left (meets_nil_right text))

end Deduction.Token
