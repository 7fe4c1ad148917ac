import TxScope.Proofs.Reads

/-!
# The reading without the record

The record has no part in what is read. Without it a recorder is a reader again, step by step
(`plain_bind`), and its counted loop reads as many elements as were declared, one after the other,
whatever room was made for them (`plain_counted`).
-/

namespace TxScope.Recorder

variable {ε α β : Type}

theorem bind_ok {read : Recorder ε α} {next : α → Recorder ε β} {c c' : Cursor} {x : α}
    (h : (read c).1 = (.ok x, c')) :
    (read >>= next) c = ((next x c').1, (read c).2 ++ (next x c').2) := by
  rcases hread : read c with ⟨outcome, loops⟩
  rw [hread] at h
  cases h
  simp only [bind, hread]

theorem bind_error {read : Recorder ε α} {next : α → Recorder ε β} {c c' : Cursor} {e : ε}
    (h : (read c).1 = (.error e, c')) : (read >>= next) c = ((.error e, c'), (read c).2) := by
  rcases hread : read c with ⟨outcome, loops⟩
  rw [hread] at h
  cases h
  simp only [bind, hread]

theorem plain_pure (x : α) : plain (pure x : Recorder ε α) = pure x := rfl

theorem plain_lift (read : Reader ε α) : plain (liftM read : Recorder ε α) = read := rfl

theorem plain_during (stage : Stage) (read : Recorder Truncated α) :
    plain (read.during stage) = (plain read).during stage := rfl

theorem plain_bind (read : Recorder ε α) (next : α → Recorder ε β) :
    plain (read >>= next) = plain read >>= fun x => plain (next x) := by
  funext c
  rcases h : plain read c with ⟨e | x, c'⟩
  · rw [Reader.bind_error h, plain, bind_error h]
  · rw [Reader.bind_ok h, plain, bind_ok h]
    rfl

/-- What a loop reads stands behind what was in the buffer. -/
theorem outcome_fill (element : Nat → Reader ε α) : ∀ (count index : Nat) (buffer : Buffer α)
    (c : Cursor), ((fill element count index buffer c).outcome,
      (fill element count index buffer c).cursor) =
        ((buffer.toList ++ ·) <$> Reader.inTurn element count index) c
  | 0, _, buffer, c => by
    show (Except.ok buffer.toList, c) = (Except.ok (buffer.toList ++ []), c)
    rw [List.append_nil]
  | count + 1, index, buffer, c => by
    rw [Reader.inTurn, Reader.map_bind]
    rcases h : element index c with ⟨e | x, c'⟩
    · rw [Reader.bind_error h]
      simp only [fill, h, Filled.outcome]
    · have hrest := outcome_fill element count (index + 1) (buffer.push x) c'
      rw [Buffer.toList_push] at hrest
      rw [Reader.bind_ok h, Reader.map_bind]
      simp only [fill, h, Filled.outcome] at hrest ⊢
      rw [hrest]
      simp only [Functor.map, List.append_assoc, List.singleton_append]
      rfl

theorem plain_counted (site : LoopSite) (count smallest : Nat) (element : Nat → Reader ε α) :
    plain (counted site count smallest element) = Reader.inTurn element count 0 := by
  funext c
  refine (outcome_fill element count 0 (Buffer.reserve _) c).trans ?_
  simp only [Buffer.toList_reserve, List.nil_append]
  rcases h : Reader.inTurn element count 0 c with ⟨e | xs, c'⟩
  · exact Reader.bind_error h
  · exact Reader.bind_ok h

end TxScope.Recorder
