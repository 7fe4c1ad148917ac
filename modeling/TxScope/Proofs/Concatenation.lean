import TxScope.Proofs.Disassembly

/-!
# Scripts put together

Bytes behind a script change none of its whole tokens. Reading goes on where the script ended, or
at the push that was cut off there (`disassemble_append`), so a script cut at any place keeps its
tokens up to the cut.

One more byte completes at most the push it is the last byte of (`last_token_cases`).
-/

namespace TxScope.Script

theorem wholeTokens_eq_of_whole {script : Bytes}
    (h : ∀ t ∈ disassemble script, t.isMalformed = false) :
    wholeTokens script = disassemble script := by
  unfold wholeTokens
  rw [List.filter_eq_self]
  intro t ht
  rw [h t ht]
  rfl

theorem wholeTokens_eq_of_marker {script : Bytes} {ts : List Token} {reason : MalformedPush}
    (h : disassemble script = ts ++ [.malformed reason]) : wholeTokens script = ts := by
  obtain ⟨hwell, hcases⟩ := wholeTokens_spec script
  rcases hcases with ⟨htokens, -⟩ | ⟨op, after, reason', htokens, -, -⟩
  · have hmem : Token.malformed reason ∈ wholeTokens script := by
      rw [← htokens, h]
      simp
    exact (hwell _ hmem).elim
  · rw [h] at htokens
    exact (List.append_inj_left' htokens rfl).symm

/-- The bytes of a script behind its whole tokens: none, or a push that is cut off. -/
def unreadBytes (script : Bytes) : Bytes := script.drop (wholeBytes script).length

theorem wholeBytes_append_unreadBytes (script : Bytes) :
    wholeBytes script ++ unreadBytes script = script := by
  unfold unreadBytes
  rcases (wholeTokens_spec script).2 with ⟨-, hbytes⟩ | ⟨op, after, reason, -, hbytes, -⟩
  · rw [← hbytes, List.drop_length, List.append_nil]
  · have hpre : wholeBytes script <+: script := ⟨op :: after, hbytes.symm⟩
    exact List.prefix_iff_eq_append.1 hpre

/-- Behind whole tokens nothing is left unread, and behind a marker the push that it is about. -/
theorem unreadBytes_cases (script : Bytes) :
    ((∀ t ∈ disassemble script, t.isMalformed = false) ∧ unreadBytes script = []) ∨
      ∃ op after reason, .malformed reason ∈ disassemble script ∧
        unreadBytes script = op :: after ∧ step op after = .stop reason := by
  have happ := wholeBytes_append_unreadBytes script
  obtain ⟨hwell, hcases⟩ := wholeTokens_spec script
  rcases hcases with ⟨htokens, hbytes⟩ | ⟨op, after, reason, htokens, hbytes, hstop⟩
  · refine .inl ⟨fun t ht => ?_, ?_⟩
    · rw [htokens] at ht
      exact (hwell t ht).isMalformed_eq
    · rw [← hbytes] at happ
      exact List.append_right_eq_self.1 happ
  · refine .inr ⟨op, after, reason, by rw [htokens]; simp, ?_, hstop⟩
    exact List.append_cancel_left (happ.trans hbytes)

/-- The whole tokens of the first script, and then what is read from the rest of it on. -/
theorem disassemble_append (a b : Bytes) :
    disassemble (a ++ b) = wholeTokens a ++ disassemble (unreadBytes a ++ b) := by
  have hbytes : a ++ b = (wholeTokens a).flatMap Token.encode ++ (unreadBytes a ++ b) := by
    rw [← List.append_assoc]
    exact congrArg (· ++ b) (wholeBytes_append_unreadBytes a).symm
  rw [hbytes, disassemble_encode_append (wholeTokens_spec a).1]

/-- Disassembling two scripts put together: the tokens of the one and of the other, if the first
ends with a token; otherwise the second completes, or fails to complete, the push that the first
breaks off in. Cutting a script leaves its tokens up to the cut. -/
theorem disassemble_compositional :
    (∀ a b : Bytes, (∀ t ∈ disassemble a, t.isMalformed = false) →
      disassemble (a ++ b) = disassemble a ++ disassemble b) ∧
    (∀ (a b : Bytes) (ts : List Token) (reason : MalformedPush),
      disassemble a = ts ++ [.malformed reason] → disassemble (a ++ b) =
        ts ++ disassemble (a.drop ((disassemble a).map Token.size).sum ++ b)) ∧
    ∀ (script : Bytes) (n : Nat),
      (disassemble (script.take n)).filter (fun t => !t.isMalformed) <+: disassemble script := by
  refine ⟨fun a b hwhole => ?_, fun a b ts reason hmarker => ?_, fun script n => ?_⟩
  · have hunread : unreadBytes a = [] := by
      rw [unreadBytes, wholeBytes_eq_iff.2 hwhole, List.drop_length]
    rw [disassemble_append, wholeTokens_eq_of_whole hwhole, hunread, List.nil_append]
  · rw [disassemble_append, wholeTokens_eq_of_marker hmarker, unreadBytes, length_wholeBytes]
  · have happ := disassemble_append (script.take n) (script.drop n)
    rw [List.take_append_drop] at happ
    exact ⟨_, happ.symm⟩

/-- A push of five bytes that has only its length is completed by what follows. -/
theorem disassemble_compositional_completed :
    disassemble [0x51, 0x05] = [.opcode 0x51] ++ [.malformed (.exceedsBuffer 5 0)] ∧
      disassemble ([0x51, 0x05] ++ [1, 2, 3, 4, 5, 0xac]) =
        [.opcode 0x51] ++ disassemble ([0x05] ++ [1, 2, 3, 4, 5, 0xac]) ∧
      disassemble ([0x51] ++ [0x4c]) = disassemble [0x51] ++ disassemble [0x4c] := by
  have hwhole : disassemble [0x51] = [.opcode 0x51] :=
    (disassemble_of_token rfl).trans (congrArg _ disassemble_nil)
  have hcut : disassemble [0x51, 0x05] = [.opcode 0x51] ++ [.malformed (.exceedsBuffer 5 0)] :=
    (disassemble_of_token rfl).trans (congrArg _ (disassemble_of_stop rfl))
  refine ⟨hcut, ?_, disassemble_compositional.1 _ _ (by rw [hwhole]; decide)⟩
  have h := disassemble_compositional.2.1 _ [1, 2, 3, 4, 5, 0xac] _ _ hcut
  rwa [hcut] at h

/-! ## The last byte -/

/-- One more byte completes the push that is cut off, as the last byte of its data, or does not
complete it. A token that left the byte over would have been there without it, and a push of nothing
has only zeros for its length. -/
theorem step_concat_cases {op b : UInt8} {after : Bytes} {reason : MalformedPush}
    (hstop : step op after = .stop reason) (hb : b ≠ 0) :
    (∃ data, step op (after ++ [b]) = .token (.push op (data ++ [b])) []) ∨
      ∃ reason', step op (after ++ [b]) = .stop reason' := by
  rcases hstep : step op (after ++ [b]) with ⟨t, rest⟩ | reason'
  · obtain ⟨hwell, hbytes⟩ := step_eq_token_iff.1 hstep
    rw [← List.cons_append] at hbytes
    have hrest : rest = [] := by
      rcases List.eq_nil_or_concat rest with rfl | ⟨left, x, rfl⟩
      · rfl
      · rw [List.concat_eq_append, ← List.append_assoc] at hbytes
        have htoken := step_eq_token_iff.2 ⟨hwell, List.append_inj_left' hbytes rfl⟩
        rw [hstop] at htoken
        cases htoken
    subst hrest
    obtain ⟨data, rfl, -, hafter⟩ :=
      (encode_push_iff (step_eq_stop_iff.1 hstop).1).1 ⟨hwell, hbytes⟩
    rw [List.append_nil] at hafter
    rcases List.eq_nil_or_concat data with rfl | ⟨front, x, rfl⟩
    · rw [List.length_nil, toLittleEndian_zero, List.append_nil] at hafter
      have hmem : b ∈ List.replicate (lengthWidth op) 0 := by
        rw [← hafter]
        simp
      exact absurd (List.eq_of_mem_replicate hmem) hb
    · rw [List.concat_eq_append, ← List.append_assoc] at hafter
      have hx : b = x := by simpa using List.append_inj_right' hafter rfl
      exact .inl ⟨front, by rw [hx, List.concat_eq_append]⟩
  · exact .inr ⟨reason', rfl⟩

/-- A last byte that is neither zero nor the opcode of a push is a token of its own behind whole
tokens; behind a push that is cut off it belongs to this push. -/
theorem last_token_cases {b : UInt8} (hop : ¬ (0x01 ≤ b ∧ b ≤ 0x4e)) (hb : b ≠ 0)
    (before : Bytes) :
    ((∀ t ∈ disassemble before, t.isMalformed = false) ∧
      disassemble (before ++ [b]) = wholeTokens before ++ [.opcode b]) ∨
    ((¬ ∀ t ∈ disassemble before, t.isMalformed = false) ∧
      ((∃ op data, disassemble (before ++ [b]) = wholeTokens before ++ [.push op (data ++ [b])]) ∨
        ∃ reason, disassemble (before ++ [b]) = wholeTokens before ++ [.malformed reason])) := by
  rw [disassemble_append]
  rcases unreadBytes_cases before with ⟨hwhole, hunread⟩ | ⟨op, after, reason, hmem, hunread, hstop⟩
  · refine .inl ⟨hwhole, ?_⟩
    rw [hunread, List.nil_append, disassemble_of_token (step_of_plain hop []), disassemble_nil]
  · refine .inr ⟨fun hwhole => absurd (hwhole _ hmem) (by simp [Token.isMalformed]), ?_⟩
    rw [hunread, List.cons_append]
    rcases step_concat_cases hstop hb with ⟨data, hstep⟩ | ⟨reason', hstep⟩
    · exact .inl ⟨op, data, by rw [disassemble_of_token hstep, disassemble_nil]⟩
    · exact .inr ⟨reason', by rw [disassemble_of_stop hstep]⟩

end TxScope.Script
