import Mathlib.Data.List.TakeDrop
import Mathlib.Logic.Function.Iterate
import GraphClient.Failure
import GraphClient.Proofs.Text.Trimming

/-!
Failures as texts. What is read out of a text of the engine is settled by a grammar: a code word in brackets and what
stands behind them, into which a text can be split in one way at most. A failure that is displayed is such a text, and
what is read out of it again is the same but for white space in front of its message.
-/
namespace GraphClient

namespace ErrorCode

inductive Means (word : String) : ErrorCode → Prop
  | known {c : ErrorCode} : c.text = word → Means word c
  | other : (∀ c : ErrorCode, c.text ≠ word) → Means word .unknown

theorem mem_all (c : ErrorCode) : c ∈ all := by
  cases c <;> decide

theorem ofText_means (word : String) : (ofText word).Means word := by
  unfold ofText
  cases found : all.find? (·.text == word) with
  | some c => exact .known (by simpa using List.find?_some found)
  | none => exact .other fun c => by simpa using List.find?_eq_none.mp found c (mem_all c)

@[simp] theorem ofText_text (c : ErrorCode) : ofText c.text = c := by
  cases c <;> rfl

theorem ofText_eq_iff {word : String} {c : ErrorCode} : ofText word = c ↔ c.Means word := by
  constructor
  · rintro rfl
    exact ofText_means word
  · rintro (rfl | none)
    · exact ofText_text c
    · have means := ofText_means word
      generalize ofText word = d at means ⊢
      cases means with
      | known same => exact absurd same (none d)
      | other _ => rfl

end ErrorCode

structure CodeWord (word : String) : Prop where
  nonempty : word ≠ ""
  letters : ∀ c ∈ word.toList, c.isUpper = true ∨ c = '_'

theorem ErrorCode.codeWord_text (c : ErrorCode) : CodeWord c.text where
  nonempty := by cases c <;> decide
  letters := by
    have letters : (c.text.toList.all fun d => d.isUpper || d == '_') = true := by cases c <;> decide
    simpa using letters

/-- A text that consists of a code word in brackets and the rest behind them, whatever that is. -/
structure Coded (raw word rest : String) : Prop where
  spelled : CodeWord word
  parts : raw = "[" ++ word ++ "]" ++ rest

namespace Failure

theorem isCodeChar_iff {c : Char} : isCodeChar c = true ↔ c.isUpper = true ∨ c = '_' := by
  have upper : c.isUpper = true ↔ 'A' ≤ c ∧ c ≤ 'Z' := decide_eq_true_iff
  simp [isCodeChar, upper]

theorem splitCode_of_coded {raw word rest : String} (h : Coded raw word rest) :
    splitCode raw = some (word, Text.trimStart rest) := by
  have chars : raw.toList = '[' :: (word.toList ++ ']' :: rest.toList) := by simp [h.parts]
  have letters : ∀ c ∈ word.toList, isCodeChar c = true := fun c member => isCodeChar_iff.mpr (h.spelled.letters c member)
  -- no bracket is a letter of the word, so the word ends at the first one
  have body : (word.toList ++ ']' :: rest.toList).span isCodeChar = (word.toList, ']' :: rest.toList) := by
    rw [List.span_eq_takeWhile_dropWhile, List.takeWhile_append_of_pos letters, List.dropWhile_append_of_pos letters]
    simp [isCodeChar]
  unfold splitCode
  rw [chars]
  simp only [body]
  split
  · rename_i none
    exact absurd (String.toList_eq_nil_iff.mp (Prod.mk.inj none).1) h.spelled.nonempty
  · rename_i same
    cases same
    rw [String.ofList_toList, String.ofList_toList]
  · rename_i other
    exact absurd rfl (other _ _)

theorem coded_of_splitCode {raw word message : String} (h : splitCode raw = some (word, message)) :
    ∃ rest, Coded raw word rest := by
  unfold splitCode at h
  generalize chars : raw.toList = l at h
  split at h
  · rename_i body
    rw [List.span_eq_takeWhile_dropWhile] at h
    split at h
    · cases h
    · rename_i code rest some spanned
      cases h
      obtain ⟨front, behind⟩ := Prod.mk.inj spanned
      refine ⟨String.ofList rest, ⟨?_, fun c member => ?_⟩, ?_⟩
      · rintro empty
        exact some (String.ofList_eq_empty_iff.mp empty)
      · rw [String.toList_ofList, ← front] at member
        exact isCodeChar_iff.mp (List.all_eq_true.mp List.all_takeWhile c member)
      · rw [← String.toList_inj, chars]
        simp [← front, ← behind]
    · cases h
  · cases h

/-- The brackets in front are the first ones, whatever stands behind them. -/
theorem coded_unique {raw word word' rest rest' : String} (h : Coded raw word rest) (h' : Coded raw word' rest') :
    word = word' ∧ rest = rest' := by
  have same := (splitCode_of_coded h).symm.trans (splitCode_of_coded h')
  obtain rfl : word = word' := (Prod.mk.inj (Option.some.inj same)).1
  have parts := h.parts.symm.trans h'.parts
  exact ⟨rfl, (String.append_right_inj _).mp parts⟩

theorem ofEngineText_of_coded {raw word rest : String} (h : Coded raw word rest) :
    ofEngineText raw = .wire (.ofText word) (Text.trimStart rest) := by
  rw [ofEngineText, splitCode_of_coded h]

theorem ofEngineText_of_uncoded {raw : String} (none : ∀ word rest, ¬ Coded raw word rest) :
    ofEngineText raw = .wire .unknown raw := by
  unfold ofEngineText
  split
  · rename_i word message split
    obtain ⟨rest, coded⟩ := coded_of_splitCode split
    exact absurd coded (none word rest)
  · rfl

/-- What is read out of a text: the code that its word means, and the rest without the white space in front; or else the
text as it stands. -/
structure FollowsGrammar (raw : String) : Prop where
  wire : ∃ code message, ofEngineText raw = .wire code message
  coded : ∀ word rest, Coded raw word rest → ∀ code message,
    ofEngineText raw = .wire code message ↔ code.Means word ∧ Text.TrimsStart rest message
  uncoded : (∀ word rest, ¬ Coded raw word rest) → ofEngineText raw = .wire .unknown raw
  unique : ∀ word rest word' rest', Coded raw word rest → Coded raw word' rest' → word = word' ∧ rest = rest'

theorem ofEngineText_followsGrammar (raw : String) : FollowsGrammar raw where
  wire := by
    unfold ofEngineText
    split
    · exact ⟨_, _, rfl⟩
    · exact ⟨_, _, rfl⟩
  coded word rest coded code message := by
    rw [ofEngineText_of_coded coded, Failure.wire.injEq, ErrorCode.ofText_eq_iff, Text.trimStart_eq_iff]
  uncoded := ofEngineText_of_uncoded
  unique _ _ _ _ := coded_unique

example : ofEngineText "[CONFLICT] [IO] late" = .wire .conflict "[IO] late" := rfl

/-! Failures that are displayed and read again. -/

def reread (f : Failure) : Failure := ofEngineText f.display

theorem coded_display (code : ErrorCode) (message : String) :
    Coded (wire code message).display code.text (" " ++ message) := by
  have shown : (wire code message).display = "[" ++ code.text ++ "] " ++ message := rfl
  refine ⟨code.codeWord_text, shown.trans (String.toList_inj.mp ?_)⟩
  simp

theorem reread_wire (code : ErrorCode) (message : String) :
    (wire code message).reread = .wire code (Text.trimStart message) := by
  have blank : Text.isBlank " " = true := by decide
  rw [reread, ofEngineText_of_coded (coded_display code message), ErrorCode.ofText_text, Text.trimStart_append blank]

theorem reread_iterate (code : ErrorCode) (message : String) (n : Nat) :
    reread^[n + 1] (wire code message) = .wire code (Text.trimStart message) := by
  induction n with
  | zero => exact reread_wire code message
  | succ n ih => rw [Function.iterate_succ_apply', ih, reread_wire, Text.trimStart_trimStart]

/-- A failure of the engine keeps its code and its message when it is displayed and read again, but for white space in front
of the message; once that is gone, nothing changes any more. -/
theorem reread_trims :
    (∀ code message, (wire code message).reread = .wire code (Text.trimStart message)) ∧
      ∀ raw, let f := ofEngineText raw
        (f.reread = f ↔ ∀ c ∈ f.message.toList.head?, Text.isWhite c = false) ∧
          ∀ n, (reread^[n + 1] f).reread = reread^[n + 1] f := by
  refine ⟨reread_wire, fun raw => ?_⟩
  obtain ⟨code, message, read⟩ := (ofEngineText_followsGrammar raw).wire
  simp only [read]
  refine ⟨?_, fun n => ?_⟩
  · rw [reread_wire, Failure.wire.injEq, and_iff_right rfl, Failure.message, Text.trimStart_eq_self_iff]
  · rw [reread_iterate, reread_wire, Text.trimStart_trimStart]

end Failure
end GraphClient
