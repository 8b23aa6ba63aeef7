import FrontEnd.Listing.Tree
import FrontEnd.Proofs.Text.Encoding
import Mathlib.Tactic.Use

/-!
# Writing to sinks

A sink does not see how what is written to it is cut into texts: texts one after the other, up to
the first that it does not take whole, are as good as one text (`Sink.writeAll_eq_write`). A sink
that nothing was written to takes the first bytes of a text, as many as its limit allows
(`Sink.written_ofLimit`).
-/

namespace FrontEnd

open Text

namespace Sink

variable {sink : Sink} {front : List UInt8} {text : String}

/-- The first bytes, as many as the limit allows. -/
def upTo (limit : Option Nat) (bytes : List UInt8) : List UInt8 :=
  match limit with
  | none => bytes
  | some n => bytes.take n

/-- There are more bytes than the limit allows. -/
def Exceeds (limit : Option Nat) (bytes : List UInt8) : Prop :=
  ∃ n, limit = some n ∧ n < bytes.length

/-- Bytes that the limit allows are all among the first. -/
theorem upTo_of_not_exceeds {limit : Option Nat} {bytes : List UInt8} (h : ¬ Exceeds limit bytes) :
  upTo limit bytes = bytes
  := by
  cases limit with
  | none => rfl
  | some n =>
    simp only [Exceeds, Option.some.injEq, exists_eq_left', Nat.not_lt] at h
    apply List.take_of_length_le h

/-! ### Taking bytes -/

/-- The sink with those of the bytes written to it that it takes. -/
def take (sink : Sink) (bytes : List UInt8) : Sink :=
  { sink with written := sink.written ++ sink.fitting bytes }

/-- The sink takes the bytes whole. -/
def Takes (sink : Sink) (bytes : List UInt8) : Prop :=
  (sink.fitting bytes).length = bytes.length

instance (sink : Sink) (bytes : List UInt8) : Decidable (sink.Takes bytes) :=
  inferInstanceAs (Decidable (_ = _))

theorem write_eq (sink : Sink) (text : String) :
  sink.write text = (decide (sink.Takes (Utf8.encode text)), sink.take (Utf8.encode text))
  := rfl

@[simp]
theorem toList_written_take (sink : Sink) (bytes : List UInt8) :
  (sink.take bytes).written.toList = sink.written.toList ++ sink.fitting bytes
  := Array.toList_appendList

@[simp]
theorem size_written_take (sink : Sink) (bytes : List UInt8) :
  (sink.take bytes).written.size = sink.written.size + (sink.fitting bytes).length
  := by rw [← Array.length_toList, toList_written_take, List.length_append, Array.length_toList]

/-- A sink is its limit and the bytes that were written to it. -/
theorem eq_of_toList {sink' : Sink} (hlimit : sink.limit = sink'.limit)
    (hwritten : sink.written.toList = sink'.written.toList) :
  sink = sink'
  := by
  obtain ⟨limit, written⟩ := sink
  obtain ⟨limit', written'⟩ := sink'
  obtain rfl : limit = limit' := hlimit
  obtain rfl : written = written' := Array.toList_inj.mp hwritten
  rfl

@[simp]
theorem fitting_nil (sink : Sink) :
  sink.fitting [] = []
  := List.prefix_nil.mp (sink.isPrefix_fitting [])

@[simp]
theorem take_nil (sink : Sink) :
  sink.take [] = sink
  := by
  apply eq_of_toList
  · rfl
  · rw [toList_written_take, fitting_nil, List.append_nil]

/-- What is taken of two pieces is what is taken of one after the other. -/
theorem fitting_append (sink : Sink) (front back : List UInt8) :
  sink.fitting (front ++ back) = sink.fitting front ++ (sink.take front).fitting back
  := by
  have hsize := sink.size_written_take front
  obtain ⟨limit | limit, written⟩ := sink
  · rfl
  · simp only [fitting, take, List.length_take] at hsize ⊢
    rw [List.take_append, hsize]
    congr 2
    omega

theorem take_append (sink : Sink) (front back : List UInt8) :
  sink.take (front ++ back) = (sink.take front).take back
  := by
  apply eq_of_toList
  · rfl
  · rw [toList_written_take, toList_written_take, toList_written_take, fitting_append,
      List.append_assoc]

theorem takes_append_iff (sink : Sink) (front back : List UInt8) :
  sink.Takes (front ++ back) ↔ sink.Takes front ∧ (sink.take front).Takes back
  := by
  have hfront := (sink.isPrefix_fitting front).length_le
  have hback := ((sink.take front).isPrefix_fitting back).length_le
  rw [Takes, Takes, Takes, fitting_append, List.length_append, List.length_append]
  omega

/-- A sink that did not take a piece whole is full. -/
theorem fitting_of_not_takes (h : ¬ sink.Takes front) (back : List UInt8) :
  (sink.take front).fitting back = []
  := by
  have hsize := sink.size_written_take front
  obtain ⟨limit | limit, written⟩ := sink
  · exact absurd rfl h
  · simp only [Takes, fitting, take, List.length_take] at h hsize ⊢
    rw [hsize, List.take_eq_nil_iff]
    omega

/-- So nothing more is taken. -/
theorem take_of_not_takes (h : ¬ sink.Takes front) (back : List UInt8) :
  (sink.take front).take back = sink.take front
  := by
  apply eq_of_toList
  · rfl
  · rw [toList_written_take, fitting_of_not_takes h, List.append_nil]

/-! ### Texts -/

theorem write_empty (sink : Sink) :
  sink.write "" = (true, sink)
  := by
  have hencode : Utf8.encode "" = [] := rfl
  rw [write_eq, hencode, take_nil]
  simp [Takes]

/-- Texts one after the other are written as one text is. -/
theorem writeAll_eq_write (sink : Sink) (texts : List String) :
  sink.writeAll texts = sink.write (String.join texts)
  := by
  induction texts generalizing sink with
  | nil => rw [writeAll, String.join_nil, write_empty]
  | cons text rest ih =>
    rw [writeAll, String.join_cons, write_eq, write_eq, Utf8.encode_append, take_append]
    by_cases htakes : sink.Takes (Utf8.encode text)
    · simp [htakes, takes_append_iff, ih, write_eq]
    · simp [htakes, takes_append_iff, take_of_not_takes]

/-! ### Sinks that nothing was written to -/

theorem written_ofLimit (limit : Option Nat) (text : String) :
  ((ofLimit limit).write text).2.written.toList = upTo limit (Utf8.encode text)
  := by
  rw [write_eq, toList_written_take]
  cases limit with
  | none => rfl
  | some n => simp [ofLimit, fitting, upTo]

/-- More bytes than the limit allows are not taken whole. -/
theorem write_of_exceeds {limit : Option Nat} (h : Exceeds limit (Utf8.encode text)) :
  ((ofLimit limit).write text).1 = false
  := by
  obtain ⟨n, rfl, hlt⟩ := h
  rw [write_eq, decide_eq_false_iff_not]
  simp only [ofLimit, Takes, fitting, List.size_toArray, List.length_nil, Nat.sub_zero,
    List.length_take]
  omega

theorem write_of_not_exceeds {limit : Option Nat} (h : ¬ Exceeds limit (Utf8.encode text)) :
  ((ofLimit limit).write text).1 = true
  := by
  rw [write_eq, decide_eq_true_iff]
  cases limit with
  | none => rfl
  | some n =>
    simp only [Exceeds, Option.some.injEq, exists_eq_left'] at h
    simp only [ofLimit, Takes, fitting, List.size_toArray, List.length_nil, Nat.sub_zero,
      List.length_take]
    omega

end Sink

end FrontEnd
