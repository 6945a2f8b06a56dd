import Deduction.Formula.Memo
import Mathlib.Data.Finset.Card

namespace Deduction.Formula.Memo

def Request.key? : Request → Option String
  | .parse text => some (text.getD "")
  | .parse? text => some (text.getD "")
  | .errorFor text => some (text.getD "")
  | .contains _ => none
  | .size => none

/-- The texts that requests look up, in order. -/
def lookedUp (requests : List Request) : List String :=
  requests.filterMap Request.key?

def after (lenient : Bool) (requests : List Request) : Memo :=
  requests.foldl (fun memo request => (memo.answer request).2) (empty lenient)

/-- The answer to a request without a memo: texts are read anew, and what is held are the texts
that earlier requests looked up. -/
def freshAnswer (lenient : Bool) (earlier : List Request) : Request → Answer
  | .parse text => .outcome (Formula.parse lenient (text.getD ""))
  | .parse? text => .formula (Formula.parse lenient (text.getD "")).toOption
  | .errorFor text => .error (errorOf? (Formula.parse lenient (text.getD "")))
  | .contains text => .held (decide (text ∈ (lookedUp earlier).map some))
  | .size => .count (lookedUp earlier).toFinset.card

/-- A memo holds the texts that were looked up, each once, with the outcomes of reading them. -/
structure Remembers (lenient : Bool) (earlier : List Request) (memo : Memo) : Prop where
  lenient_eq : memo.lenient = lenient
  outcome_eq : ∀ entry ∈ memo.entries, entry.2 = Formula.parse lenient entry.1
  nodup : (memo.entries.map Prod.fst).Nodup
  mem_iff : ∀ text, text ∈ memo.entries.map Prod.fst ↔ text ∈ lookedUp earlier

variable {lenient : Bool} {earlier : List Request} {memo : Memo}

theorem lookUp_cases (memo : Memo) (text : Option String) :
    (∃ entry ∈ memo.entries, entry.1 = text.getD "" ∧ memo.lookUp text = (entry.2, memo)) ∨
      text.getD "" ∉ memo.entries.map Prod.fst ∧
        memo.lookUp text =
          (Formula.parse memo.lenient (text.getD ""),
            { memo with entries :=
                memo.entries ++ [(text.getD "", Formula.parse memo.lenient (text.getD ""))] }) := by
  cases hfind : memo.entries.find? (fun entry => entry.1 == text.getD "") with
  | some entry =>
      have hkey : entry.1 = text.getD "" := by simpa using List.find?_some hfind
      refine Or.inl ⟨entry, List.mem_of_find?_eq_some hfind, hkey, ?_⟩
      simp [lookUp, hfind]
  | none =>
      refine Or.inr ⟨?_, by simp [lookUp, hfind]⟩
      rw [List.mem_map]
      rintro ⟨entry, hentry, hkey⟩
      exact List.find?_eq_none.mp hfind entry hentry (by simpa using hkey)

theorem lookedUp_append (earlier : List Request) (request : Request) :
    lookedUp (earlier ++ [request]) = lookedUp earlier ++ request.key?.toList := by
  cases hkey : request.key? <;> simp [lookedUp, hkey]

theorem Remembers.lookUp_eq (hmemo : Remembers lenient earlier memo) (text : Option String) :
    (memo.lookUp text).1 = Formula.parse lenient (text.getD "") := by
  rcases memo.lookUp_cases text with ⟨entry, hentry, hkey, heq⟩ | ⟨-, heq⟩
  · rw [heq, hmemo.outcome_eq entry hentry, hkey]
  · rw [heq, hmemo.lenient_eq]

theorem Remembers.of_key?_eq_none (hmemo : Remembers lenient earlier memo) {request : Request}
    (hnone : request.key? = none) : Remembers lenient (earlier ++ [request]) memo where
  lenient_eq := hmemo.lenient_eq
  outcome_eq := hmemo.outcome_eq
  nodup := hmemo.nodup
  mem_iff text := by rw [hmemo.mem_iff, lookedUp_append, hnone, Option.toList_none, List.append_nil]

theorem Remembers.lookUp (hmemo : Remembers lenient earlier memo) {request : Request}
    {text : Option String} (hkey : request.key? = some (text.getD "")) :
    Remembers lenient (earlier ++ [request]) (memo.lookUp text).2 := by
  have hkeys : lookedUp (earlier ++ [request]) = lookedUp earlier ++ [text.getD ""] := by
    rw [lookedUp_append, hkey, Option.toList_some]
  rcases memo.lookUp_cases text with ⟨entry, hentry, hknown, heq⟩ | ⟨hnew, heq⟩
  · rw [heq]
    refine ⟨hmemo.lenient_eq, hmemo.outcome_eq, hmemo.nodup, ?_⟩
    have hheld : text.getD "" ∈ lookedUp earlier :=
      (hmemo.mem_iff _).mp (List.mem_map.mpr ⟨entry, hentry, hknown⟩)
    intro other
    rw [hmemo.mem_iff, hkeys, List.mem_append, List.mem_singleton]
    constructor
    · exact Or.inl
    · rintro (hother | rfl)
      · exact hother
      · exact hheld
  · rw [heq]
    refine ⟨hmemo.lenient_eq, ?_, ?_, ?_⟩
    · refine List.forall_mem_append.mpr ⟨hmemo.outcome_eq, ?_⟩
      simp [hmemo.lenient_eq]
    · rw [List.map_append, List.nodup_append]
      refine ⟨hmemo.nodup, List.nodup_singleton _, ?_⟩
      rintro known hknown added hadded rfl
      obtain rfl : known = text.getD "" := by simpa using hadded
      exact hnew hknown
    · intro other
      simp [hkeys, ← hmemo.mem_iff]

/-- One request is answered as without a memo, and what the memo knows stays right. -/
theorem Remembers.answer (hmemo : Remembers lenient earlier memo) (request : Request) :
    (memo.answer request).1 = freshAnswer lenient earlier request ∧
      Remembers lenient (earlier ++ [request]) (memo.answer request).2 := by
  cases request with
  | parse text =>
      refine ⟨?_, hmemo.lookUp rfl⟩
      rw [freshAnswer, ← hmemo.lookUp_eq text]
      rfl
  | parse? text =>
      refine ⟨?_, hmemo.lookUp rfl⟩
      rw [freshAnswer, ← hmemo.lookUp_eq text]
      rfl
  | errorFor text =>
      refine ⟨?_, hmemo.lookUp rfl⟩
      rw [freshAnswer, ← hmemo.lookUp_eq text]
      rfl
  | contains text =>
      cases text with
      | none => exact ⟨by simp [Memo.answer, freshAnswer], hmemo.of_key?_eq_none rfl⟩
      | some text =>
          refine ⟨?_, hmemo.of_key?_eq_none rfl⟩
          have hheld : memo.contains text = decide (text ∈ lookedUp earlier) := by
            rw [Bool.eq_iff_iff, decide_eq_true_iff, ← hmemo.mem_iff]
            simp [Memo.contains]
          simp [Memo.answer, freshAnswer, hheld]
  | size =>
      refine ⟨?_, hmemo.of_key?_eq_none rfl⟩
      have hsame : (memo.entries.map Prod.fst).toFinset = (lookedUp earlier).toFinset := by
        ext text
        rw [List.mem_toFinset, List.mem_toFinset, hmemo.mem_iff]
      have hcard : memo.size = (lookedUp earlier).toFinset.card := by
        rw [← hsame, List.toFinset_card_of_nodup hmemo.nodup, List.length_map, Memo.size]
      exact congrArg Answer.count hcard

theorem after_append (lenient : Bool) (earlier : List Request) (request : Request) :
    after lenient (earlier ++ [request]) = ((after lenient earlier).answer request).2 := by
  rw [after, List.foldl_append]
  rfl

theorem remembers_after (lenient : Bool) (requests : List Request) :
    Remembers lenient requests (after lenient requests) := by
  induction requests using List.reverseRecOn with
  | nil => constructor <;> simp [after, empty, lookedUp]
  | append_singleton earlier request ih =>
      rw [after_append]
      exact (ih.answer request).2

theorem length_run (memo : Memo) (requests : List Request) :
    (memo.run requests).length = requests.length := by
  induction requests generalizing memo with
  | nil => rfl
  | cons request requests ih => simp [run, ih]

theorem getElem?_run_append (memo : Memo) (earlier : List Request) (request : Request)
    (later : List Request) :
    (memo.run (earlier ++ request :: later))[earlier.length]? =
      some ((earlier.foldl (fun memo request => (memo.answer request).2) memo).answer
        request).1 := by
  induction earlier generalizing memo with
  | nil => rfl
  | cons first earlier ih => exact ih (memo.answer first).2

/-- Whatever was asked of a memo before and is asked later, each request is answered as without a
memo: texts are read anew, what is held are the texts looked up before, and their number is that of
different ones. Asking for what is held changes nothing. -/
theorem answers_fresh (lenient : Bool) (earlier later : List Request) (request : Request) :
    ((empty lenient).run (earlier ++ request :: later))[earlier.length]? =
        some (freshAnswer lenient earlier request) ∧
      ((empty lenient).run (earlier ++ request :: later)).length =
        (earlier ++ request :: later).length ∧
      (∀ text, after lenient (earlier ++ [.contains text]) = after lenient earlier) ∧
      after lenient (earlier ++ [.size]) = after lenient earlier := by
  refine ⟨?_, length_run _ _, ?_, after_append lenient earlier .size⟩
  · rw [getElem?_run_append, Option.some.injEq]
    exact ((remembers_after lenient earlier).answer request).1
  · intro text
    rw [after_append]
    cases text with
    | none => rfl
    | some text => rfl

/-- A missing text stands for the empty one where it is looked up, and not where it is asked
for. -/
theorem missing_text_not_held :
    ((empty false).run [.parse none, .contains none])[1]? = some (.held false) ∧
      Option.getD none "" ∈ lookedUp [.parse none] := by
  exact ⟨rfl, by simp [lookedUp, Request.key?]⟩

end Deduction.Formula.Memo
