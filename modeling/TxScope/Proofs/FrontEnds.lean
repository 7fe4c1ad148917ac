import TxScope.Command.Run
import TxScope.Proofs.Arguments
import TxScope.Proofs.RequestBody
import TxScope.Proofs.Serialization
import TxScope.Proofs.Traffic

/-!
# The service and the commands

A text reaches the program in the body of a request, as an argument, in a file or on the standard
input. Once it is there (`Service.Gets`, `Invocation.Gets`), nothing else of the request or of the
run counts: `Service.Gets.decode_eq` and `Invocation.Gets.run_eq` give what is done with it. The
script of an output is shown as text, and this text stands for the same script wherever it is sent
(`listedAlike`).
-/

namespace TxScope

namespace Invocation

variable {i : Invocation} {command : Command} {s : Settings} {w : Workspace}

/-- Arguments, settings and log file are in order, so that the work of a command begins. -/
def Starts (i : Invocation) (command : Command) (s : Settings) (w : Workspace) : Prop :=
  ∃ config, Arguments.ofTexts i.args = .ok (.run config command) ∧
    loadSettings i.workspace config i.environment = .ok s ∧
    openLog i.workspace i.environment s = (none, w)

theorem Starts.run_eq (h : i.Starts command s w) :
    i.run.1 = runCommand { i with workspace := w } s command := by
  obtain ⟨config, hargs, hsettings, hlog⟩ := h
  simp only [run, hargs, hsettings, hlog]

/-- The run is asked for the report on a text as JSON. -/
def Gets (i : Invocation) (text : String) (n : Network) : Prop :=
  ∃ hex file s w, i.Starts (.decode hex file true (some n)) s w ∧
    decodeInput { i with workspace := w } hex file = .ok text

theorem Gets.run_eq {text : String} {n : Network} (h : i.Gets text n) :
    i.run.1 = runDecode true n text := by
  obtain ⟨hex, file, s, w, hstarts, hinput⟩ := h
  rw [hstarts.run_eq]
  simp only [runCommand, hinput, Option.getD_some]

end Invocation

namespace Service

variable {s : Service} {r : Request} {text : String} {n : Network}

/-- The service gets a text on a route, and a network with it or as its own. -/
def Gets (s : Service) (r : Request) (route : Route) (text : String) (n : Network) : Prop :=
  r.method = "POST" ∧ Route.ofPath? r.target = some route ∧
    ∃ network, readBody r = .ok ⟨text, network⟩ ∧ network.getD s.network = n

theorem Gets.decode_eq (h : s.Gets r .decode text n) (c : Counters) :
    (s.respond r c).1 = answerDecode (Report.ofHex s.codec s.identifier n text) := by
  obtain ⟨hmethod, hroute, network, hbody, rfl⟩ := h
  have hreading : s.reading? r = some (s.report ⟨text, network⟩) := by
    simp [reading?, hmethod, hroute, hbody, Except.toOption]
  simp only [s.respond_of_reading hreading, report]

theorem Gets.script_eq (h : s.Gets r .script text n) (c : Counters) : ∃ network,
    network.getD s.network = n ∧ (s.respond r c).1 = s.answerScript ⟨text, network⟩ := by
  obtain ⟨hmethod, hroute, network, hbody, hn⟩ := h
  refine ⟨network, hn, ?_⟩
  simp [s.respond_posting hroute rfl, hmethod, answer, hbody]

theorem gets_post (route : Route) (h : HexRequest.Fits ⟨text, some n⟩) :
    s.Gets (.post route.path ⟨text, some n⟩) route text n :=
  ⟨rfl, route.ofPath?_target _, some n, readBody_post route.path h, rfl⟩

theorem respond_post_long (route : Route) (hroute : route.allowed = "POST") {request : HexRequest}
    (h : ¬ request.Fits) (c : Counters) :
    s.respond (.post route.path request) c = (.refusal 413 "the body is too long", c) := by
  have hanswer : s.answer route (.post route.path request) c =
      (.refusal 413 "the body is too long", c) := by
    cases route with
    | decode => simp only [answer, readBody_post_long _ h]
    | script => simp only [answer, readBody_post_long _ h]
    | health => exact absurd hroute (by decide)
    | metrics => exact absurd hroute (by decide)
  rw [s.respond_posting (route.ofPath?_target request) hroute, hanswer]
  rfl

end Service

/-- What the service answers and how the command ends, for the same text. -/
structure DecodedAlike (result : Except DecodeError Report) (response : Response)
    (ending : Ending) : Prop where
  answered : response.status = 200 ↔ ∃ report, result = .ok report
  finished : ending.exitCode = 0 ↔ ∃ report, result = .ok report
  sameReport : ∀ report, result = .ok report →
    response.body = report.toJson.compact ∧ ending.output = report.toJson.pretty ++ "\n"
  sameError : ∀ e, result = .error e → response = .failure e.message ∧ ending.output = ""

/-- What the service answers, what `disasm` prints and what `classify` prints, for the script of an
output. -/
structure ListedAlike (o : OutputReport) (response : Response) (listing classification : Ending) :
    Prop where
  answered : ∃ tokens : List String, " ".intercalate tokens = o.scriptPubKeyAsm ∧
    response = .json 200 (.object [("hex", .text o.scriptPubKey), ("asm", .text o.scriptPubKeyAsm),
      ("tokens", .list (tokens.map .text)), ("classification", o.classification.toJson)])
  listed : listing = .finished (o.scriptPubKeyAsm ++ "\n")
  classified : classification = .finished (o.classification.toJson.pretty ++ "\n")

theorem decodedAlike (text : String) (n : Network) :
    DecodedAlike (Report.ofHex .standard .standard n text)
      (Service.answerDecode (Report.ofHex .standard .standard n text))
      (runDecode true n text) := by
  unfold runDecode
  cases Report.ofHex .standard .standard n text with
  | ok report =>
    refine ⟨by simp [Service.answerDecode, Response.json], by simp [Ending.exitCode], ?_, ?_⟩
    · rintro _ ⟨⟩
      exact ⟨rfl, rfl⟩
    · rintro _ ⟨⟩
  | error e =>
    refine ⟨by simp [Service.answerDecode, Response.json, Response.failure],
      by simp [Ending.exitCode], ?_, ?_⟩
    · rintro _ ⟨⟩
    · rintro _ ⟨⟩
      exact ⟨rfl, rfl⟩

/-- The text of a script, sent anywhere, stands for this script again. -/
theorem listedAlike {o : OutputReport} {n : Network} {index : Nat} {output : Output}
    (ho : OutputReport.ofOutput .standard n index output = o) {m : Network}
    {asked told : Option Network} {s t : Settings} (hasked : asked.getD m = n)
    (htold : told.getD t.network = n) (i j : Invocation) :
    ListedAlike o ((Service.standard m).answerScript ⟨o.scriptPubKey, asked⟩)
      (runCommand i s (.disasm o.scriptPubKey))
      (runCommand j t (.classify o.scriptPubKey told)) := by
  have hscript : Hex.decode (Text.trim o.scriptPubKey) = .ok output.scriptPubKey := by
    rw [← ho, OutputReport.ofOutput, Text.trim_encode, Hex.decode_encode]
  subst ho
  refine ⟨⟨(Script.disassemble output.scriptPubKey).map Script.Token.text, rfl, ?_⟩, ?_, ?_⟩
  · simp only [Service.answerScript, hscript, Service.standard, hasked, List.map_map]
    rfl
  · simp only [runCommand, scriptOf, hscript]
    rfl
  · simp only [runCommand, scriptOf, hscript, htold]
    rfl

/-- The service and the commands agree. Asked for the report on a text, both give it or both refuse;
and asked about the script of an output in it, both say what the report says. A text can be handed
to the service in any body that is not too long, and to the command in any of its ways. -/
theorem front_ends_agree (m n : Network) (text : String) :
    (HexRequest.Fits ⟨text, some n⟩ →
      (Service.standard m).Gets (.post Route.decode.path ⟨text, some n⟩) .decode text n) ∧
    (¬ HexRequest.Fits ⟨text, some n⟩ → ∀ c, ((Service.standard m).respond
      (.post Route.decode.path ⟨text, some n⟩) c).1.status = 413) ∧
    (∀ args hex file, Command.AsksJson n args hex file →
      Arguments.ofTexts args = .ok (.run none (.decode hex file true (some n)))) ∧
    (∀ (r : Request) (c : Counters) (i : Invocation),
      (Service.standard m).Gets r .decode text n → i.Gets text n →
      DecodedAlike (Report.ofHex .standard .standard n text)
        ((Service.standard m).respond r c).1 i.run.1) ∧
    ∀ report, Report.ofHex .standard .standard n text = .ok report → ∀ o ∈ report.outputs,
      (HexRequest.Fits ⟨o.scriptPubKey, some n⟩ → (Service.standard m).Gets
        (.post Route.script.path ⟨o.scriptPubKey, some n⟩) .script o.scriptPubKey n) ∧
      Arguments.ofTexts ["disasm", o.scriptPubKey] = .ok (.run none (.disasm o.scriptPubKey)) ∧
      Arguments.ofTexts ["classify", "--network", n.name, o.scriptPubKey] =
        .ok (.run none (.classify o.scriptPubKey (some n))) ∧
      ∀ (r : Request) (c : Counters) (i j : Invocation) (told : Option Network) (s t : Settings)
        (v w : Workspace), (Service.standard m).Gets r .script o.scriptPubKey n →
        i.Starts (.disasm o.scriptPubKey) s v → j.Starts (.classify o.scriptPubKey told) t w →
        told.getD t.network = n →
        ListedAlike o ((Service.standard m).respond r c).1 i.run.1 j.run.1 := by
  refine ⟨Service.gets_post .decode, fun h c => ?_, fun args hex file => ?_,
    fun r c i hr hi => ?_, fun report hreport o ho => ?_⟩
  · have hlong := (Service.standard m).respond_post_long .decode (by decide) h c
    rw [hlong, Response.refusal]
  · exact Arguments.ofTexts_asksJson n
  · rw [hr.decode_eq, hi.run_eq]
    exact decodedAlike text n
  · obtain ⟨raw, tx, -, -, rfl⟩ := Report.ofHex_eq_ok_iff.1 hreport
    obtain ⟨k, hk, ho⟩ := List.mem_mapIdx.1 ho
    have hplain : Command.IsPlain o.scriptPubKey := by
      rw [← ho]
      exact Command.isPlain_encode _
    refine ⟨Service.gets_post .script, Arguments.ofTexts_disasm hplain,
      Arguments.ofTexts_classify n hplain, fun r c i j told s t v w hr hi hj htold => ?_⟩
    obtain ⟨asked, hasked, hanswer⟩ := hr.script_eq c
    rw [hanswer, hi.run_eq, hj.run_eq]
    exact listedAlike ho hasked htold _ _

def spendText : String := Hex.encode Report.oneByteSpend.raw

/-- A command in an empty directory, without environment. -/
def plainRun (args : List String) (input : String) : Invocation := ⟨args, [], ⟨[]⟩, input⟩

theorem starts_plainRun {args : List String} {command : Command}
    (h : Arguments.ofTexts args = .ok (.run none command)) (input : String) :
    (plainRun args input).Starts command .default ⟨[]⟩ :=
  ⟨none, h, rfl, rfl⟩

def jsonArgs : List String := ["decode", "--json", "--network", "mainnet"]

theorem gets_plainRun (input : String) : (plainRun jsonArgs input).Gets input .mainnet :=
  ⟨none, none, .default, ⟨[]⟩,
    starts_plainRun (Arguments.ofTexts_asksJson .mainnet .input) input, rfl⟩

theorem front_ends_agree_spend : ∃ report o,
    Report.ofHex .standard .standard .mainnet spendText = .ok report ∧ report.outputs = [o] ∧
    ((Service.standard .testnet).respond
      (.post Route.decode.path ⟨spendText, some .mainnet⟩) .zero).1.body =
        report.toJson.compact ∧
    (plainRun jsonArgs spendText).run.1.output = report.toJson.pretty ++ "\n" ∧
    (plainRun ["disasm", o.scriptPubKey] "").run.1 = .finished (o.scriptPubKeyAsm ++ "\n") := by
  have hdecode : Transaction.decode Report.oneByteSpend.raw = .ok Report.oneByteSpend := rfl
  have hreport := Report.ofHex_encode .standard .standard .mainnet hdecode
  have hfits : HexRequest.Fits ⟨spendText, some .mainnet⟩ :=
    HexRequest.fits_encode .mainnet (by decide)
  obtain ⟨hpost, -, -, hagree, hscripts⟩ := front_ends_agree .testnet .mainnet spendText
  obtain ⟨-, -, hsame, -⟩ := hagree _ .zero _ (hpost hfits) (gets_plainRun spendText)
  obtain ⟨hbody, houtput⟩ := hsame _ hreport
  obtain ⟨hpostScript, hdisasm, hclassify, hlisted⟩ := hscripts _ hreport _ List.mem_cons_self
  have hfitsScript : HexRequest.Fits ⟨Hex.encode [0x51], some .mainnet⟩ :=
    HexRequest.fits_encode .mainnet (by decide)
  have hlist := hlisted _ .zero _ _ _ _ _ _ _ (hpostScript hfitsScript)
    (starts_plainRun hdisasm "") (starts_plainRun hclassify "") rfl
  exact ⟨_, _, hreport, rfl, hbody, houtput, hlist.listed⟩

/-- The same text behind as many blanks as a body may have bytes. -/
def blankedText : String := String.ofList (List.replicate Service.bodyLimit ' ') ++ spendText

/-- The command reports on a text that is too long for the service. -/
theorem long_text_refused :
    (∃ report, Report.ofHex .standard .standard .mainnet blankedText = .ok report) ∧
    (plainRun jsonArgs blankedText).run.1.exitCode = 0 ∧
    ((Service.standard .mainnet).respond
      (.post Route.decode.path ⟨blankedText, some .mainnet⟩) .zero).1.status = 413 := by
  have hdecode : Transaction.decode Report.oneByteSpend.raw = .ok Report.oneByteSpend := rfl
  have hblank : ∀ c ∈ List.replicate Service.bodyLimit ' ', Text.isBlank c = true := by
    intro c hc
    rw [List.eq_of_mem_replicate hc]
    rfl
  have hsame : Report.ofHex .standard .standard .mainnet blankedText =
      Report.ofHex .standard .standard .mainnet spendText := by
    simp only [Report.ofHex, Transaction.bytesOfHex, blankedText, Text.trim_ofList_append hblank]
  have hreport := hsame.trans (Report.ofHex_encode .standard .standard .mainnet hdecode)
  have hlong : ¬ HexRequest.Fits ⟨blankedText, some .mainnet⟩ := by
    refine HexRequest.not_fits ?_
    simp only [blankedText, String.length_append, String.length_ofList, List.length_replicate]
    exact Nat.le_add_right _ _
  refine ⟨⟨_, hreport⟩, ?_, ?_⟩
  · rw [(gets_plainRun blankedText).run_eq]
    exact (decodedAlike blankedText .mainnet).finished.2 ⟨_, hreport⟩
  · rw [Service.respond_post_long .decode (by decide) hlong]
    rfl

end TxScope
