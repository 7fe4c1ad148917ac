import TxScope.Proofs.Tokens

/-!
# Disassembly loses nothing

A script is the bytes of its whole tokens, and behind them nothing or a push that is cut off
(`exists_split`). The tokens of the bytes of well-formed tokens are these tokens
(`disassemble_encode_append`).
-/

namespace TxScope.Script

@[simp] theorem disassemble_nil : disassemble [] = [] := by
  rw [disassemble]

theorem disassemble_of_token {op : UInt8} {rest rest' : Bytes} {t : Token}
    (h : step op rest = .token t rest') :
    disassemble (op :: rest) = t :: disassemble rest' := by
  rw [disassemble]
  grind

theorem disassemble_of_stop {op : UInt8} {rest : Bytes} {reason : MalformedPush}
    (h : step op rest = .stop reason) : disassemble (op :: rest) = [.malformed reason] := by
  rw [disassemble]
  grind

/-! ## The bytes of tokens -/

theorem Token.headerWidth_eq (op : UInt8) : Token.headerWidth op = lengthWidth op := by
  rcases hf : LengthField.ofOpcode? op with _ | field
  · have hne : ∀ field : LengthField, op ≠ field.opcode := fun field h => by
      rw [LengthField.ofOpcode?_eq_some_iff.2 h] at hf
      cases hf
    have h1 : op ≠ 0x4c := hne .one
    have h2 : op ≠ 0x4d := hne .two
    have h4 : op ≠ 0x4e := hne .four
    simp only [Token.headerWidth, hf, lengthWidth, if_neg h1, if_neg h2, if_neg h4]
  · obtain rfl := LengthField.ofOpcode?_eq_some_iff.1 hf
    rw [lengthWidth_opcode, Token.headerWidth, hf]

theorem Token.length_encode (t : Token) : t.encode.length = t.size := by
  cases t with
  | opcode op => rfl
  | push op data =>
    simp only [Token.encode, Token.size, Token.headerWidth_eq, List.length_cons,
      List.length_append, toLittleEndian_length]
    omega
  | malformed reason => rfl

theorem length_flatMap_encode (ts : List Token) :
    (ts.flatMap Token.encode).length = (ts.map Token.size).sum := by
  simp only [List.length_flatMap, Token.length_encode]

theorem Token.WellFormed.isMalformed_eq {t : Token} (h : t.WellFormed) :
    t.isMalformed = false := by
  cases t with
  | opcode op => rfl
  | push op data => rfl
  | malformed reason => exact h.elim

/-- The tokens of a script that are not cut off. -/
def wholeTokens (script : Bytes) : List Token :=
  (disassemble script).filter fun t => !t.isMalformed

/-- The bytes of the tokens of a script that are not cut off. -/
def wholeBytes (script : Bytes) : Bytes := (wholeTokens script).flatMap Token.encode

theorem disassemble_encode_append {ts : List Token} (h : ∀ t ∈ ts, t.WellFormed) (rest : Bytes) :
    disassemble (ts.flatMap Token.encode ++ rest) = ts ++ disassemble rest := by
  induction ts with
  | nil => rfl
  | cons t ts ih =>
    obtain ⟨ht, hts⟩ := List.forall_mem_cons.1 h
    rw [List.flatMap_cons, List.append_assoc]
    rcases henc : t.encode with _ | ⟨op, tail⟩
    · cases t with
      | opcode op => cases henc
      | push op data => cases henc
      | malformed reason => exact ht.elim
    · have hstep : step op (tail ++ (ts.flatMap Token.encode ++ rest)) =
          .token t (ts.flatMap Token.encode ++ rest) :=
        step_eq_token_iff.2 ⟨ht, by rw [henc, List.cons_append]⟩
      rw [List.cons_append, disassemble_of_token hstep, ih hts, List.cons_append]

/-- A script is the bytes of whole tokens, and then it ends or a push is cut off. -/
theorem exists_split (script : Bytes) : ∃ (ts : List Token) (rest : Bytes),
    (∀ t ∈ ts, t.WellFormed) ∧ script = ts.flatMap Token.encode ++ rest ∧
      (rest = [] ∨ ∃ op after reason, rest = op :: after ∧ step op after = .stop reason) := by
  induction script using disassemble.induct with
  | case1 => exact ⟨[], [], nofun, rfl, .inl rfl⟩
  | case2 op rest t rest' hstep ih =>
    obtain ⟨ht, hbytes⟩ := step_eq_token_iff.1 hstep
    obtain ⟨ts, last, hts, hrest, hend⟩ := ih
    refine ⟨t :: ts, last, List.forall_mem_cons.2 ⟨ht, hts⟩, ?_, hend⟩
    rw [hbytes, hrest, List.flatMap_cons, List.append_assoc]
  | case3 op rest reason hstep =>
    exact ⟨[], op :: rest, nofun, rfl, .inr ⟨op, rest, reason, rfl, hstep⟩⟩

/-- A script is the bytes of its own whole tokens, and a push cut off behind them shows. -/
theorem wholeTokens_spec (script : Bytes) : (∀ t ∈ wholeTokens script, t.WellFormed) ∧
    ((disassemble script = wholeTokens script ∧ script = wholeBytes script) ∨
      ∃ op after reason, disassemble script = wholeTokens script ++ [.malformed reason] ∧
        script = wholeBytes script ++ op :: after ∧ step op after = .stop reason) := by
  obtain ⟨ts, rest, hts, hscript, hend⟩ := exists_split script
  have htokens : disassemble script = ts ++ disassemble rest := by
    rw [hscript, disassemble_encode_append hts]
  have hkept : ts.filter (fun t => !t.isMalformed) = ts :=
    List.filter_eq_self.2 fun t ht => by rw [(hts t ht).isMalformed_eq]; rfl
  have hwhole : wholeTokens script = ts := by
    rw [wholeTokens, htokens, List.filter_append, hkept]
    rcases hend with rfl | ⟨op, after, reason, rfl, hstop⟩
    · rw [disassemble_nil, List.filter_nil, List.append_nil]
    · rw [disassemble_of_stop hstop]
      exact List.append_nil ts
  rw [wholeBytes, hwhole]
  refine ⟨hts, ?_⟩
  rcases hend with rfl | ⟨op, after, reason, rfl, hstop⟩
  · rw [List.append_nil] at hscript
    rw [disassemble_nil, List.append_nil] at htokens
    exact .inl ⟨htokens, hscript⟩
  · rw [disassemble_of_stop hstop] at htokens
    exact .inr ⟨op, after, reason, htokens, hscript, hstop⟩

theorem length_wholeBytes (script : Bytes) :
    (wholeBytes script).length = ((disassemble script).map Token.size).sum := by
  have hlength : (wholeBytes script).length = ((wholeTokens script).map Token.size).sum :=
    length_flatMap_encode _
  rcases (wholeTokens_spec script).2 with ⟨htokens, -⟩ | ⟨op, after, reason, htokens, -, -⟩
  · rw [hlength, htokens]
  · rw [hlength, htokens, List.map_append, List.sum_append]
    rfl

theorem wholeBytes_eq_iff {script : Bytes} :
    wholeBytes script = script ↔ ∀ t ∈ disassemble script, t.isMalformed = false := by
  obtain ⟨hwell, hcases⟩ := wholeTokens_spec script
  rcases hcases with ⟨htokens, hbytes⟩ | ⟨op, after, reason, htokens, hbytes, -⟩
  · rw [htokens]
    exact iff_of_true hbytes.symm fun t ht => (hwell t ht).isMalformed_eq
  · rw [htokens]
    refine iff_of_false (fun heq => ?_) fun hall => ?_
    · rw [heq] at hbytes
      exact List.cons_ne_nil _ _ (List.self_eq_append_right.1 hbytes)
    · cases hall (.malformed reason) (by simp)

theorem exists_stop_of_mem {script : Bytes} {reason : MalformedPush}
    (h : .malformed reason ∈ disassemble script) :
    ∃ op after, script = wholeBytes script ++ op :: after ∧ step op after = .stop reason := by
  obtain ⟨hwell, hcases⟩ := wholeTokens_spec script
  rcases hcases with ⟨htokens, -⟩ | ⟨op, after, reason', htokens, hbytes, hstop⟩
  · rw [htokens] at h
    exact (hwell _ h).elim
  · rw [htokens] at h
    rcases List.mem_append.1 h with h | h
    · exact (hwell _ h).elim
    · obtain rfl := Token.malformed.inj (List.mem_singleton.1 h)
      exact ⟨op, after, hbytes, hstop⟩

/-- A script is its whole tokens' bytes followed by at most one push that is cut off, of which the
last token tells what is missing; and well-formed tokens are read back from their bytes. -/
theorem disassemble_lossless :
    (∀ script : Bytes,
      (disassemble script = wholeTokens script ∨
        ∃ reason, disassemble script = wholeTokens script ++ [.malformed reason]) ∧
      (∀ t ∈ wholeTokens script, t.WellFormed) ∧
      wholeBytes script <+: script ∧
      (wholeBytes script).length = ((disassemble script).map Token.size).sum ∧
      (wholeBytes script = script ↔ ∀ t ∈ disassemble script, t.isMalformed = false) ∧
      (∀ reason, .malformed reason ∈ disassemble script → ∃ op after,
        script = wholeBytes script ++ op :: after ∧ (0x01 ≤ op ∧ op ≤ 0x4e) ∧
        ∀ reason', reason = reason' ↔ CutOff op after reason')) ∧
    ∀ ts : List Token, (∀ t ∈ ts, t.WellFormed) → disassemble (ts.flatMap Token.encode) = ts := by
  refine ⟨fun script => ?_, fun ts hts => ?_⟩
  · obtain ⟨hwell, hcases⟩ := wholeTokens_spec script
    refine ⟨?_, hwell, ?_, length_wholeBytes script, wholeBytes_eq_iff, fun reason hmem => ?_⟩
    · rcases hcases with ⟨htokens, -⟩ | ⟨op, after, reason, htokens, -, -⟩
      · exact .inl htokens
      · exact .inr ⟨reason, htokens⟩
    · rcases hcases with ⟨-, hbytes⟩ | ⟨op, after, reason, -, hbytes, -⟩
      · exact ⟨[], by rw [List.append_nil, ← hbytes]⟩
      · exact ⟨op :: after, hbytes.symm⟩
    · obtain ⟨op, after, hbytes, hstop⟩ := exists_stop_of_mem hmem
      have hpush := (step_eq_stop_iff.1 hstop).1
      have hcut : ∀ other, step op after = .stop other ↔ CutOff op after other := fun other =>
        step_eq_stop_iff.trans (and_iff_right hpush)
      refine ⟨op, after, hbytes, hpush, fun other => ?_⟩
      rw [← hcut, hstop, Step.stop.injEq]
  · have h := disassemble_encode_append hts []
    rwa [List.append_nil, disassemble_nil, List.append_nil] at h

/-- Pushes are read back also where a shorter form would do; and a push of five bytes with only one
behind it is left over. -/
theorem disassemble_lossless_pushes :
    disassemble ([.opcode opDup, .push 0x4c [1, 2], .push 0x4d [], .push 0x02 [3, 4],
      .opcode opCheckSig].flatMap Token.encode) = [.opcode opDup, .push 0x4c [1, 2], .push 0x4d [],
        .push 0x02 [3, 4], .opcode opCheckSig] ∧
    ∃ op after, [0x51, 0x4d, 5, 0, 1] = wholeBytes [0x51, 0x4d, 5, 0, 1] ++ op :: after ∧
      CutOff op after (.exceedsBuffer 5 1) := by
  refine ⟨disassemble_lossless.2 _ (by decide), ?_⟩
  have htokens : disassemble [0x51, 0x4d, 5, 0, 1] =
      [.opcode 0x51, .malformed (.exceedsBuffer 5 1)] :=
    (disassemble_of_token rfl).trans (congrArg _ (disassemble_of_stop rfl))
  obtain ⟨op, after, hbytes, -, hcut⟩ := (disassemble_lossless.1 _).2.2.2.2.2 (.exceedsBuffer 5 1)
    (by rw [htokens]; decide)
  exact ⟨op, after, hbytes, (hcut _).1 rfl⟩

end TxScope.Script
