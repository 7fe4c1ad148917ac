import TxScope.Proofs.RequestBody
import TxScope.Proofs.Serialization
import TxScope.Proofs.Tally

/-!
# Requests and counters

What a request does is one of three things (`Service.respond_of_reading`,
`respond_of_readsCounters`, `exists_respond`): it brings about a reading of a transaction, which is
counted and answered for itself; it shows the counters; or it neither sees nor changes them. So the
counters after a run are those of its readings in any order (`Service.respondAll_counters`,
`Counters.foldl_record`), and all answers that do not show them are the answers to the requests
alone (`Service.answers_eq`).
-/

namespace TxScope

namespace Counters

/-- The label that a reading is counted under. -/
def outcome : Except DecodeError Report → String
  | .ok _ => "ok"
  | .error .emptyInput => "empty_input"
  | .error (.invalidHex _) => "invalid_hex"
  | .error (.truncated _ _) => "truncated"
  | .error (.trailingBytes _) => "trailing_bytes"

def outcomes : List String := ["ok", "empty_input", "invalid_hex", "truncated", "trailing_bytes"]

/-- The outputs that a reading reports on. -/
def reported : Except DecodeError Report → List OutputReport
  | .ok report => report.outputs
  | .error _ => []

def typeName (o : OutputReport) : String := o.classification.type.name

theorem recordOutputs_eq (outputs : List OutputReport) : ∀ c : Counters, c.recordOutputs outputs =
    { c with outputs := (outputs.map typeName).foldl Tally.add c.outputs } := by
  induction outputs with
  | nil => exact fun _ => rfl
  | cons o outputs ih => exact fun c => ih (c.recordOutput (typeName o))

theorem record_eq (c : Counters) (result : Except DecodeError Report) : c.record result =
    { decodes := Tally.add c.decodes (outcome result)
      outputs := ((reported result).map typeName).foldl Tally.add c.outputs
      durations := c.durations + 1 } := by
  cases result with
  | error e => cases e <;> rfl
  | ok report =>
    rw [record, recordOutputs_eq]
    rfl

/-- Readings are counted by their labels, their number, and the types of the outputs in all of
them. -/
theorem foldl_record (results : List (Except DecodeError Report)) : ∀ c : Counters,
    results.foldl record c =
      { decodes := (results.map outcome).foldl Tally.add c.decodes
        outputs := ((results.flatMap reported).map typeName).foldl Tally.add c.outputs
        durations := c.durations + results.length } := by
  induction results with
  | nil => exact fun _ => rfl
  | cons result results ih =>
    intro c
    rw [List.foldl_cons, ih, record_eq]
    simp only [List.map_cons, List.foldl_cons, List.flatMap_cons, List.map_append,
      List.foldl_append, List.length_cons, Nat.add_assoc, Nat.add_comm 1]

theorem foldl_record_perm {results results' : List (Except DecodeError Report)}
    (h : results.Perm results') (c : Counters) :
    results.foldl record c = results'.foldl record c := by
  rw [foldl_record, foldl_record, Tally.foldl_add_perm (h.map outcome),
    Tally.foldl_add_perm ((h.flatMap_right reported).map typeName), h.length_eq]

theorem count_decodes (results : List (Except DecodeError Report)) (label : String) :
    (results.foldl record .zero).decodes.count label = (results.map outcome).count label := by
  rw [foldl_record]
  exact (Tally.count_foldl_add label _ List.Pairwise.nil).trans (Nat.zero_add _)

theorem count_outputs (results : List (Except DecodeError Report)) (label : String) :
    (results.foldl record .zero).outputs.count label =
      ((results.flatMap reported).map typeName).count label := by
  rw [foldl_record]
  exact (Tally.count_foldl_add label _ List.Pairwise.nil).trans (Nat.zero_add _)

theorem durations_eq (results : List (Except DecodeError Report)) :
    (results.foldl record .zero).durations = results.length := by
  rw [foldl_record]
  exact Nat.zero_add _

theorem flatMap_reported (results : List (Except DecodeError Report)) :
    results.flatMap reported = (results.filterMap Except.toOption).flatMap Report.outputs := by
  induction results with
  | nil => rfl
  | cons result results ih =>
    rw [List.flatMap_cons, ih]
    cases result <;> rfl

theorem name_injective : Function.Injective OutputType.name := by
  intro t t' h
  cases t <;> cases t' <;> first | rfl | exact absurd h (by decide)

theorem count_typeName (t : OutputType) (outputs : List OutputReport) :
    (outputs.map typeName).count t.name =
      outputs.countP fun o => o.classification.type = t := by
  rw [List.count, List.countP_map]
  refine List.countP_congr fun o _ => ?_
  simp [typeName, name_injective.eq_iff]

theorem outcome_mem (result : Except DecodeError Report) : outcome result ∈ outcomes := by
  rcases result with (_ | _ | _ | _) | _ <;> simp [outcome, outcomes]

/-- Every label is one of the five, so their counts add up to the number of all labels. -/
theorem sum_count_outcomes (results : List (Except DecodeError Report)) :
    (outcomes.map (results.map outcome).count).sum = results.length := by
  induction results with
  | nil => rfl
  | cons result results ih =>
    have hmem := outcome_mem result
    simp only [outcomes, List.map_cons, List.map_nil, List.sum_cons, List.sum_nil, List.mem_cons,
      List.not_mem_nil, or_false, List.count_cons, List.length_cons] at ih hmem ⊢
    rcases hmem with h | h | h | h | h <;> simp [h] <;> omega

end Counters

/-- Whether the answer shows the counters. -/
def Request.readsCounters (r : Request) : Bool :=
  r.method == "GET" && Route.ofPath? r.target == some .metrics

namespace Service

variable (s : Service) {r : Request}

/-- The reading of a transaction that a request brings about: one sent to be decoded, in a body that
is accepted. -/
def reading? (r : Request) : Option (Except DecodeError Report) :=
  if r.method = "POST" ∧ Route.ofPath? r.target = some .decode then
    (readBody r).toOption.map s.report
  else none

theorem respond_posting {route : Route} (hroute : Route.ofPath? r.target = some route)
    (ha : route.allowed = "POST") (c : Counters) : s.respond r c =
      if r.method = "OPTIONS" then (.preflight (some "POST"), c)
      else if r.method = "POST" then s.answer route r c
      else (.methodNotAllowed "POST", c) := by
  unfold respond
  rw [hroute]
  simp only [ha, Option.map_some]
  split_ifs with ho hp
  · rfl
  · simp [hp]
  · split <;> simp_all

theorem respond_getting {route : Route} (hroute : Route.ofPath? r.target = some route)
    (ha : route.allowed = "GET,HEAD") (c : Counters) : s.respond r c =
      if r.method = "OPTIONS" then (.preflight (some "GET,HEAD"), c)
      else if r.method = "GET" then s.answer route r c
      else if r.method = "HEAD" then ((s.answer route r c).1.headOnly, (s.answer route r c).2)
      else (.methodNotAllowed "GET,HEAD", c) := by
  unfold respond
  rw [hroute]
  simp only [ha, Option.map_some]
  split_ifs with ho hg hh
  · rfl
  · simp [hg]
  · simp [hh]
  · split <;> simp_all

theorem respond_of_reading {result : Except DecodeError Report}
    (h : s.reading? r = some result) (c : Counters) :
    s.respond r c = (answerDecode result, c.record result) := by
  unfold reading? at h
  split_ifs at h with hp
  obtain ⟨hm, hroute⟩ := hp
  cases hbody : readBody r with
  | error refusal => simp [hbody, Except.toOption] at h
  | ok request =>
    simp only [hbody, Except.toOption, Option.map_some, Option.some.injEq] at h
    simp [s.respond_posting hroute rfl, hm, answer, hbody, h]

theorem respond_of_readsCounters (h : r.readsCounters = true) (c : Counters) :
    s.respond r c = (.metrics c.text, c) := by
  simp only [Request.readsCounters, Bool.and_eq_true, beq_iff_eq] at h
  simp [s.respond_getting h.2 rfl, h.1, answer]

/-- Any other request gets an answer that does not depend on the counters, and leaves them alone. A
body that is accepted would be a reading, and without its body not even the answer that shows the
counters depends on them. -/
theorem exists_respond (h : s.reading? r = none) (hc : r.readsCounters = false) :
    ∃ response, ∀ c, s.respond r c = (response, c) := by
  cases hroute : Route.ofPath? r.target with
  | none =>
    simp only [respond, hroute]
    split_ifs <;> exact ⟨_, fun c => rfl⟩
  | some route =>
    cases route with
    | decode =>
      simp only [s.respond_posting hroute rfl, answer]
      split_ifs with ho hp
      · exact ⟨_, fun c => rfl⟩
      · rw [reading?, if_pos ⟨hp, hroute⟩] at h
        cases hbody : readBody r with
        | error refusal => exact ⟨refusal, fun c => rfl⟩
        | ok request => simp [hbody, Except.toOption] at h
      · exact ⟨_, fun c => rfl⟩
    | script =>
      simp only [s.respond_posting hroute rfl, answer]
      cases readBody r <;> split_ifs <;> exact ⟨_, fun c => rfl⟩
    | health =>
      simp only [s.respond_getting hroute rfl, answer]
      split_ifs <;> exact ⟨_, fun c => rfl⟩
    | metrics =>
      have hg : r.method ≠ "GET" := fun hg => by simp [Request.readsCounters, hg, hroute] at hc
      simp only [s.respond_getting hroute rfl, if_neg hg, answer, Response.metrics,
        Response.headOnly]
      split_ifs <;> exact ⟨_, fun c => rfl⟩

theorem respond_counters (r : Request) (c : Counters) :
    (s.respond r c).2 = (s.reading? r).toList.foldl Counters.record c := by
  cases h : s.reading? r with
  | some result =>
    rw [s.respond_of_reading h]
    rfl
  | none =>
    cases hc : r.readsCounters
    · obtain ⟨response, hr⟩ := s.exists_respond h hc
      rw [hr]
      rfl
    · rw [s.respond_of_readsCounters hc]
      rfl

theorem respond_answer (hc : r.readsCounters = false) (c c' : Counters) :
    (s.respond r c).1 = (s.respond r c').1 := by
  cases h : s.reading? r with
  | some result => rw [s.respond_of_reading h, s.respond_of_reading h]
  | none =>
    obtain ⟨response, hr⟩ := s.exists_respond h hc
    rw [hr, hr]

theorem respondAll_cons (r : Request) (rs : List Request) (c : Counters) :
    s.respondAll (r :: rs) c =
      ((s.respond r c).1 :: (s.respondAll rs (s.respond r c).2).1,
        (s.respondAll rs (s.respond r c).2).2) := rfl

theorem respondAll_counters (rs : List Request) : ∀ c : Counters,
    (s.respondAll rs c).2 = (rs.filterMap s.reading?).foldl Counters.record c := by
  induction rs with
  | nil => exact fun _ => rfl
  | cons r rs ih =>
    intro c
    rw [respondAll_cons, ih, respond_counters, List.filterMap_cons]
    cases s.reading? r <;> rfl

/-- The requests of a run with their answers, without those that show the counters. -/
def answers (rs : List Request) (c : Counters) : List (Request × Response) :=
  (rs.zip (s.respondAll rs c).1).filter fun p => !p.1.readsCounters

theorem answers_eq (rs : List Request) : ∀ c : Counters, s.answers rs c =
    (rs.filter fun r => !r.readsCounters).map fun r => (r, (s.respond r .zero).1) := by
  induction rs with
  | nil => exact fun _ => rfl
  | cons r rs ih =>
    intro c
    have hrest := ih (s.respond r c).2
    unfold answers at hrest ⊢
    rw [respondAll_cons, List.zip_cons_cons, List.filter_cons, List.filter_cons, hrest]
    cases hc : r.readsCounters
    · simp [s.respond_answer hc c .zero]
    · simp

theorem answerDecode_status (result : Except DecodeError Report) :
    (answerDecode result).status = 200 ↔ ∃ report, result = .ok report := by
  cases result <;> simp [answerDecode, Response.json, Response.failure]

theorem reading?_eq_none (h : r.method ≠ "POST" ∨ Route.ofPath? r.target ≠ some .decode ∨
    ∃ refusal, readBody r = .error refusal) : s.reading? r = none := by
  unfold reading?
  split_ifs with hp
  · rcases h with h | h | ⟨refusal, h⟩
    · exact absurd hp.1 h
    · exact absurd hp.2 h
    · rw [h]
      rfl
  · rfl

/-- From counters at zero, a run counts each reading once, with its outcome, and each output of the
reports that were sent. Nothing else is counted, and apart from what shows the counters no answer
depends on the rest of the run. -/
theorem counters_conserved (rs : List Request) :
    (∀ label, (s.respondAll rs .zero).2.decodes.count label =
      (rs.filterMap s.reading?).countP fun result => Counters.outcome result = label) ∧
    (s.respondAll rs .zero).2.durations = (rs.filterMap s.reading?).length ∧
    (s.respondAll rs .zero).2.durations =
      (Counters.outcomes.map (s.respondAll rs .zero).2.decodes.count).sum ∧
    (∀ t : OutputType, (s.respondAll rs .zero).2.outputs.count t.name =
      ((rs.filterMap s.reading?).filterMap Except.toOption |>.flatMap Report.outputs).countP
        fun o => o.classification.type = t) ∧
    (∀ r c result, s.reading? r = some result → (s.respond r c).1 = answerDecode result ∧
      ((s.respond r c).1.status = 200 ↔ ∃ report, result = .ok report)) ∧
    (∀ r c e, s.reading? r = some (.error e) → (s.respond r c).2.outputs = c.outputs) ∧
    (∀ r c, r.method ≠ "POST" ∨ Route.ofPath? r.target ≠ some .decode ∨
      (∃ refusal, readBody r = .error refusal) → (s.respond r c).2 = c) ∧
    (∀ r c, r.readsCounters = false → (s.respond r c).1 = (s.respond r .zero).1) ∧
    ∀ rs', rs.Perm rs' → (s.respondAll rs .zero).2 = (s.respondAll rs' .zero).2 ∧
      (s.answers rs .zero).Perm (s.answers rs' .zero) := by
  have hcounters := s.respondAll_counters rs .zero
  refine ⟨fun label => ?_, ?_, ?_, fun t => ?_, fun r c result h => ?_, fun r c e h => ?_,
    fun r c h => ?_, fun r c h => s.respond_answer h c .zero, fun rs' h => ⟨?_, ?_⟩⟩
  · rw [hcounters, Counters.count_decodes, List.count_eq_countP, List.countP_map]
    exact List.countP_congr fun _ _ => by simp
  · rw [hcounters, Counters.durations_eq]
  · rw [hcounters, Counters.durations_eq, funext (Counters.count_decodes _),
      Counters.sum_count_outcomes]
  · rw [hcounters, Counters.count_outputs, Counters.count_typeName, Counters.flatMap_reported]
  · rw [s.respond_of_reading h]
    exact ⟨rfl, answerDecode_status result⟩
  · rw [s.respond_of_reading h, Counters.record_eq]
    rfl
  · rw [respond_counters, s.reading?_eq_none h]
    rfl
  · rw [hcounters, respondAll_counters, Counters.foldl_record_perm (h.filterMap s.reading?)]
  · rw [answers_eq, answers_eq]
    exact (h.filter _).map _

theorem reading?_post {request : HexRequest} (h : request.Fits) :
    s.reading? (.post Route.decode.path request) = some (s.report request) := by
  have hpost : (Request.post Route.decode.path request).method = "POST" := rfl
  simp only [reading?, hpost, Route.ofPath?_target, readBody_post _ h, and_self, if_true]
  rfl

/-- A transaction that is read, a look at the counters, and a text without digits. -/
def exchange : List Request :=
  [.post Route.decode.path ⟨Hex.encode Report.oneByteSpend.raw, some .mainnet⟩,
    ⟨"GET", Route.metrics.path, [], []⟩, .post Route.decode.path ⟨Hex.encode [], some .mainnet⟩]

theorem counters_conserved_exchange :
    ((standard .testnet).respondAll exchange .zero).2.durations = 2 ∧
    ((standard .testnet).respondAll exchange .zero).2.decodes.count "empty_input" = 1 ∧
    ((standard .testnet).respondAll exchange .zero).2.outputs.count OutputType.unknown.name =
      1 := by
  have hdecode : Transaction.decode Report.oneByteSpend.raw = .ok Report.oneByteSpend := rfl
  have hspend : (standard .testnet).report ⟨Hex.encode Report.oneByteSpend.raw, some .mainnet⟩ =
      .ok (.ofTransaction .standard .standard .mainnet Report.oneByteSpend) :=
    Report.ofHex_encode .standard .standard .mainnet hdecode
  have hempty : (standard .testnet).report ⟨Hex.encode [], some .mainnet⟩ =
      .error .emptyInput := rfl
  have hspendFits : HexRequest.Fits ⟨Hex.encode Report.oneByteSpend.raw, some .mainnet⟩ :=
    HexRequest.fits_encode .mainnet (by decide)
  have hemptyFits : HexRequest.Fits ⟨Hex.encode [], some .mainnet⟩ :=
    HexRequest.fits_encode .mainnet (by decide)
  have hread := (standard .testnet).reading?_post hspendFits
  have hrefused := (standard .testnet).reading?_post hemptyFits
  rw [hspend] at hread
  rw [hempty] at hrefused
  have hmetrics : (standard .testnet).reading? ⟨"GET", Route.metrics.path, [], []⟩ = none :=
    reading?_eq_none _ (.inl (by decide))
  have hreadings : exchange.filterMap (standard .testnet).reading? =
      [.ok (.ofTransaction .standard .standard .mainnet Report.oneByteSpend),
        .error .emptyInput] := by
    rw [exchange, List.filterMap_cons_some hread, List.filterMap_cons_none hmetrics,
      List.filterMap_cons_some hrefused, List.filterMap_nil]
  obtain ⟨hdecodes, hdurations, -, houtputs, -⟩ := (standard .testnet).counters_conserved exchange
  rw [hreadings] at hdecodes hdurations houtputs
  refine ⟨hdurations, ?_, ?_⟩
  · rw [hdecodes]
    rfl
  · rw [houtputs]
    rfl

end Service

end TxScope
