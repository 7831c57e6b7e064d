import Mathlib.Data.List.Basic
import ScenarioSampling.Model.Constraint

/-!
# The text of a constraint

A text is a row of chunks with blanks between them, and a chunk is a row of parts with stars between
them. No part holds a blank or a star, so a text says what its chunks are (`partsOf_written`). The
last two are the comparison and the variable on the right. The others are the terms with plus signs
between them, or one zero if there are no terms, or one product; the number of parts tells these
apart (`chunks_injective`). So constraints with the same text are the same (`text_injective`).
-/

namespace ScenarioSampling

namespace Constraint

section Chunks

/-- A text without blanks and stars. -/
def IsPart (s : String) : Prop := ' ' ∉ s.toList ∧ '*' ∉ s.toList

instance (s : String) : Decidable (IsPart s) :=
  inferInstanceAs (Decidable (_ ∧ _))

theorem isPart_append {s t : String} : IsPart (s ++ t) ↔ IsPart s ∧ IsPart t := by
  simp only [IsPart, String.toList_append, List.mem_append, not_or]
  exact and_and_and_comm

/-- A row of parts that can be found in its text again. -/
def IsChunk (parts : List String) : Prop := parts ≠ [] ∧ ∀ s ∈ parts, IsPart s

theorem isChunk_singleton {s : String} (h : IsPart s) : IsChunk [s] :=
  ⟨List.cons_ne_nil s [], List.forall_mem_singleton.2 h⟩

/-- The parts with stars between them. -/
def chunkText (parts : List String) : String := "*".intercalate parts

/-- The chunks with blanks between them. -/
def written (chunks : List (List String)) : String := " ".intercalate (chunks.map chunkText)

theorem written_append {chunks more : List (List String)} (h : chunks ≠ []) (hmore : more ≠ []) :
    written (chunks ++ more) = written chunks ++ " " ++ written more := by
  rw [written, List.map_append, String.intercalate_append_of_ne_nil (by simpa using h)
    (by simpa using hmore), ← written, ← written]

theorem written_cons {parts : List String} {chunks : List (List String)} (h : chunks ≠ []) :
    written (parts :: chunks) = chunkText parts ++ " " ++ written chunks :=
  written_append (List.cons_ne_nil parts []) h

/-- The pieces between blanks, each taken apart at its stars. -/
def partsOf (s : String) : List (List (List Char)) :=
  (s.toList.splitOn ' ').map (List.splitOn '*')

theorem blank_notMem_chunkText :
    ∀ {parts : List String}, (∀ s ∈ parts, IsPart s) → ' ' ∉ (chunkText parts).toList
  | [], _ => by simp [chunkText]
  | [s], h => by simpa [chunkText] using (h s List.mem_cons_self).1
  | s :: t :: parts, h => by
    have hs := (h s List.mem_cons_self).1
    have ht := blank_notMem_chunkText fun u hu => h u (List.mem_cons_of_mem s hu)
    rw [chunkText, String.intercalate_cons_cons, ← chunkText]
    simp [hs, ht]

theorem splitOn_chunkText {parts : List String} (h : IsChunk parts) :
    (chunkText parts).toList.splitOn '*' = parts.map String.toList := by
  rw [chunkText, String.toList_intercalate]
  refine List.splitOn_intercalate '*' ?_ (by simpa using h.1)
  simpa using fun s hs => (h.2 s hs).2

section Written

variable {chunks : List (List String)} (hne : chunks ≠ []) (h : ∀ parts ∈ chunks, IsChunk parts)
include hne h

theorem splitOn_written :
    (written chunks).toList.splitOn ' ' = chunks.map fun parts => (chunkText parts).toList := by
  rw [written, String.toList_intercalate, List.map_map]
  refine List.splitOn_intercalate ' ' ?_ (by simpa using hne)
  simpa using fun parts hparts => blank_notMem_chunkText (h parts hparts).2

theorem partsOf_written : partsOf (written chunks) = chunks.map (List.map String.toList) := by
  rw [partsOf, splitOn_written hne h, List.map_map]
  exact List.map_congr_left fun parts hparts => splitOn_chunkText (h parts hparts)

end Written

end Chunks

section Numbers

theorem isDigit_of_mem_natText {n : Nat} {x : Char} (h : x ∈ (toString n).toList) :
    x.isDigit = true := by
  rw [Nat.toString_eq_repr, Nat.toList_repr] at h
  exact Nat.isDigit_of_mem_toDigits (by decide) (by decide) h

theorem isPart_natText (n : Nat) : IsPart (toString n) :=
  ⟨fun h => absurd (isDigit_of_mem_natText h) (by decide),
    fun h => absurd (isDigit_of_mem_natText h) (by decide)⟩

theorem intText_eq (n : Int) :
    toString n = if 0 ≤ n then toString n.toNat else "-" ++ toString (-n).toNat := by
  rw [Int.toString_eq_repr, Int.repr_eq_if, Nat.toString_eq_repr, Nat.toString_eq_repr]

theorem isPart_intText (n : Int) : IsPart (toString n) := by
  rw [intText_eq]
  split
  · exact isPart_natText n.toNat
  · exact isPart_append.2 ⟨by decide, isPart_natText (-n).toNat⟩

/-- A number can be read back from its digits. -/
theorem natText_inj {n m : Nat} : toString n = toString m ↔ n = m := by
  refine ⟨fun h => ?_, congrArg _⟩
  have hdigits : Nat.toDigits 10 n = Nat.toDigits 10 m := by
    rw [← Nat.toList_repr, ← Nat.toList_repr, ← Nat.toString_eq_repr, h, Nat.toString_eq_repr]
  calc n = Nat.ofDigitChars 10 (Nat.toDigits 10 n) 0 := Nat.ofDigitChars_ten_toDigits.symm
    _ = Nat.ofDigitChars 10 (Nat.toDigits 10 m) 0 := by rw [hdigits]
    _ = m := Nat.ofDigitChars_ten_toDigits

theorem natText_ne_minus (n m : Nat) : toString n ≠ "-" ++ toString m := by
  intro h
  have hminus : '-' ∈ (toString n).toList := by
    rw [h, String.toList_append]
    exact List.mem_append_left _ (by decide)
  exact absurd (isDigit_of_mem_natText hminus) (by decide)

theorem intText_inj {n m : Int} : toString n = toString m ↔ n = m := by
  refine ⟨fun h => ?_, congrArg _⟩
  rw [intText_eq, intText_eq] at h
  split_ifs at h with hn hm hm
  · have hnat : n.toNat = m.toNat := natText_inj.1 h
    omega
  · exact (natText_ne_minus _ _ h).elim
  · exact (natText_ne_minus _ _ h.symm).elim
  · have hnat : (-n).toNat = (-m).toNat := natText_inj.1 ((String.append_right_inj "-").1 h)
    omega

/-- A variable as it is written in a constraint. -/
def varText (x : VarIndex) : String := "x" ++ toString x.val

theorem isPart_varText (x : VarIndex) : IsPart (varText x) :=
  isPart_append.2 ⟨by decide, isPart_natText x.val⟩

theorem varText_inj {x y : VarIndex} : varText x = varText y ↔ x = y := by
  rw [varText, varText, String.append_right_inj, natText_inj]
  cases x
  cases y
  simp only [Index.mk.injEq]

theorem isPart_symbol (c : Comparison) : IsPart c.symbol := by
  cases c <;> decide

theorem symbol_inj {c d : Comparison} : c.symbol = d.symbol ↔ c = d := by
  cases c <;> cases d <;> decide

end Numbers

/-- The two parts of a term. -/
def termChunk (t : Term) : List String := [toString t.coefficient, varText t.var]

/-- The terms with plus signs between them, or a zero. -/
def sumChunks : List Term → List (List String)
  | [] => [["0"]]
  | [t] => [termChunk t]
  | t :: u :: ts => termChunk t :: ["+"] :: sumChunks (u :: ts)

/-- The chunks in front of the comparison. -/
def leftChunks : Constraint → List (List String)
  | linear c => sumChunks c.terms
  | product c => [[toString c.factor, varText c.left, varText c.right]]

/-- All chunks of a constraint. -/
def chunks (c : Constraint) : List (List String) :=
  c.leftChunks ++ [[c.comparison.symbol], [varText c.target]]

theorem sumChunks_ne_nil : ∀ ts : List Term, sumChunks ts ≠ []
  | [] => List.cons_ne_nil _ _
  | [_] => List.cons_ne_nil _ _
  | _ :: _ :: _ => List.cons_ne_nil _ _

theorem leftChunks_ne_nil : ∀ c : Constraint, c.leftChunks ≠ []
  | linear c => sumChunks_ne_nil c.terms
  | product _ => List.cons_ne_nil _ _

theorem isChunk_termChunk (t : Term) : IsChunk (termChunk t) :=
  ⟨List.cons_ne_nil _ _, List.forall_mem_cons.2
    ⟨isPart_intText t.coefficient, List.forall_mem_singleton.2 (isPart_varText t.var)⟩⟩

theorem isChunk_of_mem_sumChunks : ∀ ts : List Term, ∀ parts ∈ sumChunks ts, IsChunk parts
  | [] => List.forall_mem_singleton.2 (isChunk_singleton (by decide))
  | [t] => List.forall_mem_singleton.2 (isChunk_termChunk t)
  | t :: u :: ts => List.forall_mem_cons.2 ⟨isChunk_termChunk t, List.forall_mem_cons.2
      ⟨isChunk_singleton (by decide), isChunk_of_mem_sumChunks (u :: ts)⟩⟩

theorem isChunk_of_mem_leftChunks : ∀ c : Constraint, ∀ parts ∈ c.leftChunks, IsChunk parts
  | linear c => isChunk_of_mem_sumChunks c.terms
  | product c => List.forall_mem_singleton.2 ⟨List.cons_ne_nil _ _, List.forall_mem_cons.2
      ⟨isPart_intText c.factor, List.forall_mem_cons.2
        ⟨isPart_varText c.left, List.forall_mem_singleton.2 (isPart_varText c.right)⟩⟩⟩

theorem isChunk_of_mem_chunks (c : Constraint) : ∀ parts ∈ c.chunks, IsChunk parts :=
  List.forall_mem_append.2 ⟨c.isChunk_of_mem_leftChunks, List.forall_mem_cons.2
    ⟨isChunk_singleton (isPart_symbol c.comparison),
      List.forall_mem_singleton.2 (isChunk_singleton (isPart_varText c.target))⟩⟩

theorem toString_string (s : String) : toString s = s := rfl

theorem termText_eq (t : Term) : termText t = chunkText (termChunk t) :=
  String.toList_injective (by simp [termText, chunkText, termChunk, varText, toString_string])

theorem written_sumChunks : ∀ ts : List Term,
    written (sumChunks ts) = if ts.isEmpty then "0" else " + ".intercalate (ts.map termText)
  | [] => by simp [sumChunks, written, chunkText]
  | [t] => by simp [sumChunks, written, termText_eq]
  | t :: u :: ts => by
    have ih := written_sumChunks (u :: ts)
    rw [List.isEmpty_cons, if_neg Bool.false_ne_true] at ih ⊢
    have hplus : " " ++ chunkText ["+"] ++ " " = " + " := by simp [chunkText]
    calc written (sumChunks (t :: u :: ts))
        = chunkText (termChunk t) ++ " "
            ++ (chunkText ["+"] ++ " " ++ written (sumChunks (u :: ts))) := by
          rw [sumChunks, written_cons (List.cons_ne_nil _ _), written_cons (sumChunks_ne_nil _)]
      _ = termText t ++ (" " ++ chunkText ["+"] ++ " ")
            ++ " + ".intercalate ((u :: ts).map termText) := by
          rw [ih, termText_eq]
          simp only [String.append_assoc]
      _ = " + ".intercalate ((t :: u :: ts).map termText) := by
          rw [hplus, List.map_cons, List.map_cons, List.map_cons, String.intercalate_cons_cons]

theorem text_eq_written (c : Constraint) : c.text = written c.chunks := by
  rw [chunks, written_append c.leftChunks_ne_nil (List.cons_ne_nil _ _)]
  refine String.toList_injective ?_
  cases c with
  | linear c =>
    rw [text, leftChunks, written_sumChunks]
    simp [written, chunkText, varText, comparison, target, toString_string]
  | product c =>
    simp [text, leftChunks, written, chunkText, varText, comparison, target, toString_string]

theorem partsOf_text (c : Constraint) :
    partsOf c.text = c.chunks.map (List.map String.toList) := by
  rw [text_eq_written]
  exact partsOf_written (List.append_ne_nil_of_left_ne_nil c.leftChunks_ne_nil _)
    c.isChunk_of_mem_chunks

theorem termChunk_inj {t u : Term} : termChunk t = termChunk u ↔ t = u := by
  cases t
  cases u
  simp only [termChunk, List.cons.injEq, intText_inj, varText_inj, and_true, Term.mk.injEq]

theorem sumChunks_injective : Function.Injective sumChunks
  | [], [], _ => rfl
  | [], [_], h => by simp [sumChunks, termChunk] at h
  | [], _ :: _ :: _, h => by simp [sumChunks, termChunk] at h
  | [_], [], h => by simp [sumChunks, termChunk] at h
  | [t], [u], h => by rw [termChunk_inj.1 (List.singleton_inj.1 h)]
  | [_], _ :: _ :: _, h => by simp [sumChunks] at h
  | _ :: _ :: _, [], h => by simp [sumChunks, termChunk] at h
  | _ :: _ :: _, [_], h => by simp [sumChunks] at h
  | t :: t' :: ts, u :: u' :: us, h => by
    simp only [sumChunks, List.cons.injEq, termChunk_inj, true_and] at h
    rw [h.1, sumChunks_injective h.2]

/-- A term has one part less than a product. -/
theorem sumChunks_ne_product {f x y : String} : ∀ ts : List Term, sumChunks ts ≠ [[f, x, y]]
  | [] => by simp [sumChunks]
  | [t] => by simp [sumChunks, termChunk]
  | t :: u :: ts => by simp [sumChunks]

/-- The comparison and the right side are the last two chunks, however many stand before them. -/
theorem chunks_injective : Function.Injective chunks := by
  intro c d h
  obtain ⟨hleft, hright⟩ := List.append_inj' h rfl
  simp only [List.cons.injEq, symbol_inj, varText_inj, and_true] at hright
  obtain ⟨hcomparison, htarget⟩ := hright
  cases c with
  | linear c =>
    cases d with
    | linear d =>
      obtain ⟨ts, comparison, x⟩ := c
      cases sumChunks_injective hleft
      cases hcomparison
      cases htarget
      rfl
    | product d => exact absurd hleft (sumChunks_ne_product c.terms)
  | product c =>
    cases d with
    | linear d => exact absurd hleft.symm (sumChunks_ne_product d.terms)
    | product d =>
      obtain ⟨f, x, y, comparison, z⟩ := c
      simp only [leftChunks, List.cons.injEq, intText_inj, varText_inj, and_true] at hleft
      obtain ⟨rfl, rfl, rfl⟩ := hleft
      cases hcomparison
      cases htarget
      rfl

/-- Constraints that have the same text are the same: of one kind, with the same terms in the same
order or the same factor and variables, with one comparison and one right side. -/
theorem text_injective : Function.Injective text := by
  intro c d h
  have hparts : c.chunks.map (List.map String.toList) = d.chunks.map (List.map String.toList) := by
    rw [← partsOf_text, ← partsOf_text, h]
  have htoList : Function.Injective (List.map String.toList) :=
    List.map_injective_iff.2 fun _ _ => String.toList_injective
  exact chunks_injective (List.map_injective_iff.2 htoList hparts)

/-- A sum without terms, one with a term, and a product that begins like that term. -/
theorem text_injective_at_shared_start :
    let empty := linear ⟨[], .eq, ⟨0⟩⟩
    let one := linear ⟨[⟨-2, ⟨1⟩⟩], .eq, ⟨0⟩⟩
    let scaled := product ⟨-2, ⟨1⟩, ⟨10⟩, .eq, ⟨0⟩⟩
    (empty.text = "0 == x0" ∧ one.text = "-2*x1 == x0" ∧ scaled.text = "-2*x1*x10 == x0")
      ∧ empty.text ≠ one.text ∧ one.text ≠ scaled.text ∧ empty.text ≠ scaled.text := by
  intro empty one scaled
  exact ⟨by decide, text_injective.ne (by decide), text_injective.ne (by decide),
    text_injective.ne (by decide)⟩

end Constraint

end ScenarioSampling
