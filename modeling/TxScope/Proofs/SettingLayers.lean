import TxScope.Command.Run
import TxScope.Proofs.Environment

/-!
# Settings by layers

What a table and an environment give to the settings is a `Layer`: a value, or none, for each of
them. The environment put over a file gives its own layer over that of the file (`gives_layered`),
and a layer is read with the defaults under it (`ofTable_of_gives`). So each setting has the value
of the first layer that has one for it (`loadSettings_layers`); only the table of the server has no
default for what is missing in it.
-/

namespace TxScope

open Settings (Value Table lookup)

namespace Settings

/-! ## Layers of values -/

/-- The values that a layer has for the settings. -/
structure Layer where
  network : Option Network
  logLevel : Option String
  logFormat : Option LogFormat
  /-- That there is no log file is a value as well. -/
  logFile : Option (Option String)
  bind : Option String

namespace Layer

/-- Each value of a layer hides that of the lower one. -/
def above (upper lower : Layer) : Layer where
  network := upper.network.or lower.network
  logLevel := upper.logLevel.or lower.logLevel
  logFormat := upper.logFormat.or lower.logFormat
  logFile := upper.logFile.or lower.logFile
  bind := upper.bind.or lower.bind

/-- A layer over the defaults. -/
def settings (l : Layer) : Settings where
  network := l.network.getD default.network
  logLevel := l.logLevel.getD default.logLevel
  logFormat := l.logFormat.getD default.logFormat
  logFile := l.logFile.getD default.logFile
  bind := l.bind.getD default.bind

end Layer

/-- A value spells a text, if it is one or has one. -/
def Value.Spells (v : Value) (s : String) : Prop := v.scalarText? = some s

/-- A value chooses by a name: it is the name, or has it as its only key. -/
inductive Value.Chooses {α : Type} (choose : String → Option α) : Value → α → Prop
  | text {name : String} {x : α} (h : choose name = some x) : Chooses choose (.string name) x
  | key {name : String} {x : α} {v : Value} (h : choose name = some x) :
    Chooses choose (.table [(name, v)]) x

/-- A value is a text, or says that there is none. -/
inductive Value.MaySpell : Value → Option String → Prop
  | nothing : MaySpell .nothing none
  | text {v : Value} {s : String} (h : v.Spells s) : MaySpell v (some s)

/-- Under the keys of settings a table holds values that the settings take, those of a layer. -/
structure Gives (t : Table) (l : Layer) : Prop where
  network : Option.Rel (Value.Chooses Network.ofName?) (lookup "network" t) l.network
  logLevel : Option.Rel Value.Spells (lookup "log_level" t) l.logLevel
  logFormat : Option.Rel (Value.Chooses logFormat?) (lookup "log_format" t) l.logFormat
  logFile : Option.Rel Value.MaySpell (lookup "log_file" t) l.logFile
  bind : (lookup "server" t = none ∧ l.bind = none) ∨
    ∃ entries, lookup "server" t = some (.table entries) ∧
      Option.Rel Value.Spells (lookup "bind" entries) l.bind

/-- An orderly environment sets settings to values that these take, those of a layer. -/
structure Sets (env : List (String × String)) (l : Layer) : Prop where
  orderly : Orderly env
  network : Option.Rel (fun text n => Network.ofName? text = some n) (textOf? "network" env)
    l.network
  logLevel : textOf? "log_level" env = l.logLevel
  logFormat : Option.Rel (fun text f => logFormat? text = some f) (textOf? "log_format" env)
    l.logFormat
  logFile : (textOf? "log_file" env).map some = l.logFile
  bind : textOf? "server__bind" env = l.bind

/-! ## A table read -/

theorem Value.Spells.asText_eq {v : Value} {s : String} (h : v.Spells s) (key : String) :
    asText key v = .ok s := by
  rw [asText, h]

theorem Value.Chooses.asChoice_eq {α : Type} {choose : String → Option α} {v : Value} {x : α}
    (h : v.Chooses choose x) (key : String) : asChoice key choose v = .ok x := by
  cases h with
  | text h => simp [asChoice, h]
  | key h => simp [asChoice, h]

theorem asOptional_of_ne {α : Type} {read : Value → Except Error α} {v : Value}
    (h : v ≠ .nothing) : asOptional read v = some <$> read v := by
  cases v with
  | nothing => exact absurd rfl h
  | _ => rfl

theorem Value.MaySpell.asOptional_eq {v : Value} {x : Option String} (h : v.MaySpell x)
    (key : String) : asOptional (asText key) v = .ok x := by
  cases h with
  | nothing => rfl
  | text h =>
    have hv : v ≠ .nothing := by
      rintro rfl
      exact absurd h (by simp [Value.Spells, Value.scalarText?])
    rw [asOptional_of_ne hv, h.asText_eq]
    rfl

theorem field_eq {α : Type} {R : Value → α → Prop} {t : Table} {key : String}
    {read : Value → Except Error α} {x : Option α} (h : Option.Rel R (lookup key t) x)
    (hread : ∀ v a, R v a → read v = .ok a) (d : α) : field t key d read = .ok (x.getD d) := by
  rw [field]
  generalize lookup key t = v at h
  cases h with
  | none => rfl
  | some h => exact hread _ _ h

variable {t : Table} {l : Layer}

theorem Gives.ofTable_eq (h : Gives t l) :
    ofTable t = (fun address => { l.settings with bind := address }) <$>
      field t "server" default.bind asServer := by
  rw [ofTable, field_eq h.network fun _ _ h => h.asChoice_eq _,
    field_eq h.logLevel fun _ _ h => h.asText_eq _,
    field_eq h.logFormat fun _ _ h => h.asChoice_eq _,
    field_eq h.logFile fun _ _ h => h.asOptional_eq _]
  rfl

/-- The server's table is there, but no address in it. -/
def Lacks (t : Table) (l : Layer) : Prop := lookup "server" t ≠ none ∧ l.bind = none

theorem Gives.server_of_lacks (h : Gives t l) (hlacks : Lacks t l) :
    field t "server" default.bind asServer = .error (.refused "server") := by
  rcases h.bind with ⟨hnone, -⟩ | ⟨entries, hentries, hrel⟩
  · exact absurd hnone hlacks.1
  · rw [hlacks.2] at hrel
    have hbind : lookup "bind" entries = none := by
      generalize lookup "bind" entries = v at hrel
      cases hrel
      rfl
    rw [field, hentries]
    simp only [asServer, hbind]

theorem Gives.server_of_not_lacks (h : Gives t l) (hlacks : ¬ Lacks t l) :
    field t "server" default.bind asServer = .ok (l.bind.getD default.bind) := by
  rcases h.bind with ⟨hnone, hbind⟩ | ⟨entries, hentries, hrel⟩
  · rw [field, hnone, hbind]
    rfl
  · rcases hbind : l.bind with _ | address
    · exact absurd ⟨by simp [hentries], hbind⟩ hlacks
    · rw [hbind] at hrel
      rw [field, hentries]
      generalize hv : lookup "bind" entries = v at hrel
      cases hrel with
      | some hspells =>
        simp only [asServer, hv]
        exact hspells.asText_eq _

theorem Gives.ofTable_of_lacks (h : Gives t l) (hlacks : Lacks t l) :
    ofTable t = .error (.refused "server") := by
  rw [h.ofTable_eq, h.server_of_lacks hlacks]
  rfl

theorem Gives.ofTable_of_not_lacks (h : Gives t l) (hlacks : ¬ Lacks t l) :
    ofTable t = .ok l.settings := by
  rw [h.ofTable_eq, h.server_of_not_lacks hlacks]
  rfl

/-! ## The environment over a file -/

/-- The table of a file, with its keys read as paths. -/
def placed (file : Table) : Table := placeAll file []

section Layered

variable {env : List (String × String)} {upper lower : Layer} {file : Table}

theorem rel_of_map_eq {α β : Type} {R : α → β → Prop} {f : α → β} {x : Option α} {y : Option β}
    (h : x.map f = y) (hf : ∀ a, R a (f a)) : Option.Rel R x y := by
  rw [← h]
  cases x with
  | none => exact .none
  | some a => exact .some (hf a)

theorem rel_imp {α β : Type} {R S : α → β → Prop} {x : Option α} {y : Option β}
    (h : Option.Rel R x y) (himp : ∀ a b, R a b → S a b) : Option.Rel S x y := by
  cases h with
  | none => exact .none
  | some h => exact .some (himp _ _ h)

/-- At a key outside of tables a variable hides what was there. -/
theorem rel_layered {α : Type} {R : Value → α → Prop} {name : String} {x y : Option α}
    (henv : Orderly env) (hname : name ∈ plainNames)
    (hupper : Option.Rel (fun text a => R (.string text) a) (textOf? name env) x)
    (hlower : Option.Rel R (lookup name (placed file)) y) :
    Option.Rel R (lookup name (layered file env)) (x.or y) := by
  obtain ⟨hkey, hjoin, hpath, -⟩ := plainNames_spec hname
  have hmem := mem_settingNames.2 (.inl hname)
  generalize htext : textOf? name env = text at hupper
  cases hupper with
  | none =>
    have hsame := lookup_layered_of_none file henv hmem htext
    rw [hkey] at hsame
    rw [hsame]
    exact hlower
  | some h =>
    have hnew := lookup_layered_of_some file henv hmem htext
    rw [hkey, hjoin, hpath] at hnew
    simp only [hnew, KeyPath.stored, KeyPath.overlay, Option.some_or]
    exact .some h

theorem server_layered_of_none (hupper : Sets env upper) (h : upper.bind = none) :
    lookup "server" (layered file env) = lookup "server" (placed file) := by
  have hsame := lookup_layered_of_none file hupper.orderly (mem_settingNames.2 (.inr rfl))
    (hupper.bind.trans h)
  rwa [topKey_server] at hsame

theorem server_layered_of_some {text : String} (hupper : Sets env upper)
    (h : upper.bind = some text) :
    ∃ entries, lookup "server" (layered file env) = some (.table entries) ∧
      lookup "bind" entries = some (.string text) := by
  have hnew := lookup_layered_of_some file hupper.orderly (mem_settingNames.2 (.inr rfl))
    (hupper.bind.trans h)
  rw [topKey_server, ofText_server] at hnew
  refine ⟨_, hnew, ?_⟩
  simp only [lookup_assign, if_pos, KeyPath.overlay]

/-- The environment is put over the file. A variable with the address puts it into the server's
table, or makes one. -/
theorem gives_layered (hupper : Sets env upper) (hlower : Gives (placed file) lower) :
    Gives (layered file env) (upper.above lower) where
  network := rel_layered hupper.orderly (by decide)
    (rel_imp hupper.network fun _ _ h => .text h) hlower.network
  logLevel := rel_layered hupper.orderly (by decide)
    (rel_of_map_eq (Option.map_id_apply.trans hupper.logLevel) fun _ => rfl) hlower.logLevel
  logFormat := rel_layered hupper.orderly (by decide)
    (rel_imp hupper.logFormat fun _ _ h => .text h) hlower.logFormat
  logFile := rel_layered hupper.orderly (by decide)
    (rel_of_map_eq hupper.logFile fun _ => .text rfl) hlower.logFile
  bind := by
    rcases hbind : upper.bind with _ | text
    · rw [server_layered_of_none hupper hbind]
      simp only [Layer.above, hbind, Option.none_or]
      exact hlower.bind
    · obtain ⟨entries, hentries, haddress⟩ := server_layered_of_some hupper hbind
      refine .inr ⟨entries, hentries, ?_⟩
      simp only [Layer.above, haddress, hbind, Option.some_or]
      exact .some rfl

theorem lacks_layered_iff (hupper : Sets env upper) :
    Lacks (layered file env) (upper.above lower) ↔
      Lacks (placed file) lower ∧ upper.bind = none := by
  constructor
  · rintro ⟨hserver, hbind⟩
    obtain ⟨hup, hlow⟩ := Option.or_eq_none_iff.1 hbind
    rw [server_layered_of_none hupper hup] at hserver
    exact ⟨⟨hserver, hlow⟩, hup⟩
  · rintro ⟨⟨hserver, hlow⟩, hup⟩
    rw [← server_layered_of_none hupper hup] at hserver
    exact ⟨hserver, Option.or_eq_none_iff.2 ⟨hup, hlow⟩⟩

end Layered

/-! ## What has no part in the settings -/

/-- The path that a key spells begins with the key of a setting. -/
def leads (key : String) : Bool :=
  settingNames.any fun name => (KeyPath.ofText key).head = topKey name

theorem ofTable_congr {t t' : Table}
    (h : ∀ name ∈ settingNames, lookup (topKey name) t = lookup (topKey name) t') :
    ofTable t = ofTable t' := by
  have hplain {name : String} (hname : name ∈ plainNames) : lookup name t = lookup name t' := by
    have hsame := h name (mem_settingNames.2 (.inl hname))
    rwa [(plainNames_spec hname).1] at hsame
  have hserver : lookup "server" t = lookup "server" t' :=
    h "server__bind" (mem_settingNames.2 (.inr rfl))
  have hnetwork := hplain (show "network" ∈ plainNames by decide)
  have hlevel := hplain (show "log_level" ∈ plainNames by decide)
  have hformat := hplain (show "log_format" ∈ plainNames by decide)
  have hfile := hplain (show "log_file" ∈ plainNames by decide)
  simp only [ofTable, field, hnetwork, hlevel, hformat, hfile, hserver]

theorem entriesAt_filter_leads {name : String} (hname : name ∈ settingNames) (file : Table) :
    entriesAt (topKey name) (file.filter fun e => leads e.1) = entriesAt (topKey name) file := by
  rw [entriesAt, entriesAt, List.filter_filter]
  refine List.filter_congr fun e _ => ?_
  by_cases h : (KeyPath.ofText e.1).head = topKey name
  · have hleads : leads e.1 = true := List.any_eq_true.2 ⟨name, hname, by simpa using h⟩
    rw [hleads, Bool.and_true]
  · simp [h]

/-- Only the keys and variables that have to do with settings have a part in these. -/
theorem ofLayers_filter {env : List (String × String)} (henv : Orderly env) (file : Table) :
    ofLayers (file.filter fun e => leads e.1) (env.filter fun e => concerns e.1) =
      ofLayers file env := by
  rw [ofLayers, ofLayers]
  refine ofTable_congr fun name hname => ?_
  rw [layered, layered]
  refine lookup_placeAll_of_entriesAt_eq ?_ ?_
  · rw [entriesAt_environmentLayer (henv.sublist List.filter_sublist) hname,
      entriesAt_environmentLayer henv hname, textOf?_filter hname]
  · exact lookup_placeAll_of_entriesAt_eq (entriesAt_filter_leads hname file) rfl

/-- A file whose keys are plain names holds at the keys of settings what its table holds. -/
theorem lookup_placed {file : Table} (hfile : (Value.table file).Distinct)
    (hplain : ∀ e ∈ file, KeyPath.ofText e.1 = ⟨e.1, []⟩) {name : String}
    (hname : name ∈ settingNames) :
    lookup (topKey name) (placed file) = lookup (topKey name) file := by
  refine lookup_placeAll_of_plain hfile hplain ?_
  rcases mem_settingNames.1 hname with h | rfl
  · obtain ⟨htop, -, hpath, -⟩ := plainNames_spec h
    rw [htop, hpath]
  · rfl

end Settings

/-! ## The settings that are loaded -/

open Settings

/-- The table of the settings file that is read, which is empty if there is no such file. -/
inductive ReadsFile (w : Workspace) (config : Option String) : Table → Prop
  | parsed {name text : String} {format : Format} {file : Table}
    (hfound : findSettings? w (config.getD defaultFile) = some (name, format))
    (htext : w.read name = .ok text) (hparsed : format.read? text = some file) :
    ReadsFile w config file
  | absent (hnone : config = none) (hfound : findSettings? w defaultFile = none) :
    ReadsFile w config []

section

variable {w : Workspace} {config : Option String} {file : Table} {env : List (String × String)}

theorem ReadsFile.loadSettings_eq (h : ReadsFile w config file) (env : List (String × String)) :
    loadSettings w config env = ofLayers file env := by
  cases h with
  | parsed hfound htext hparsed =>
    simp only [loadSettings, hfound, htext, Except.toOption, Option.map_some, ofFile, hparsed]
  | absent hnone hfound =>
    subst hnone
    simp [loadSettings, hfound, ofFile]

/-- Each setting is the environment's, else the file's, else the default, unless the file has a
table for the server and no layer an address. What else is in the layers has no part in this. And
if the keys of the file are no paths, its values are those of its table, in whatever order its keys
are placed. -/
theorem loadSettings_layers {upper lower : Layer} (hfile : ReadsFile w config file)
    (hlower : Gives (placed file) lower) (hupper : Sets env upper) :
    (Lacks (placed file) lower ∧ upper.bind = none →
      loadSettings w config env = .error (.refused "server")) ∧
    (¬ (Lacks (placed file) lower ∧ upper.bind = none) →
      loadSettings w config env = .ok (upper.above lower).settings) ∧
    loadSettings w config env =
      ofLayers (file.filter fun e => leads e.1) (env.filter fun e => concerns e.1) ∧
    ((Value.table file).Distinct → (∀ e ∈ file, KeyPath.ofText e.1 = ⟨e.1, []⟩) →
      ∀ name ∈ settingNames, lookup (topKey name) (placed file) = lookup (topKey name) file) := by
  have hgives := gives_layered hupper hlower
  have hlacks : Lacks (layered file env) (upper.above lower) ↔ _ := lacks_layered_iff hupper
  rw [hfile.loadSettings_eq]
  refine ⟨fun h => ?_, fun h => ?_, (ofLayers_filter hupper.orderly file).symm, ?_⟩
  · exact hgives.ofTable_of_lacks (hlacks.2 h)
  · exact hgives.ofTable_of_not_lacks fun hlayered => h (hlacks.1 hlayered)
  · exact fun hdistinct hplain name hname => lookup_placed hdistinct hplain hname

end

section Overridden

def overriddenFile : String :=
  "network = testnet\ncolour = green\n[server]\nbind = 0.0.0.0:8080\n"

def overriddenTable : Table :=
  [("network", .string "testnet"), ("colour", .string "green"),
    ("server", .table [("bind", .string "0.0.0.0:8080")])]

def overridingEnvironment : List (String × String) :=
  [("PATH", "/bin"), ("TxDecode_Server__Bind", "1.2.3.4:5"), ("TXDECODE_LOG_LEVEL", "warn"),
    ("TXDECODE_OTHER__X", "y")]

theorem readsFile_overridden :
    ReadsFile (.ofFiles [("txdecode.ini", overriddenFile)]) (some "txdecode.ini")
      overriddenTable := by
  have hfound : findSettings? (.ofFiles [("txdecode.ini", overriddenFile)]) "txdecode.ini" =
      some ("txdecode.ini", .ini) := rfl
  have htext : Workspace.read (.ofFiles [("txdecode.ini", overriddenFile)]) "txdecode.ini" =
      .ok overriddenFile := rfl
  have hparsed : Format.ini.read? overriddenFile = some overriddenTable := rfl
  exact .parsed hfound htext hparsed

theorem gives_overridden :
    Gives (placed overriddenTable) ⟨some .testnet, none, none, none, some "0.0.0.0:8080"⟩ where
  network := .some (.text rfl)
  logLevel := .none
  logFormat := .none
  logFile := .none
  bind := .inr ⟨_, rfl, .some rfl⟩

theorem sets_overriding :
    Sets overridingEnvironment ⟨none, some "warn", none, none, some "1.2.3.4:5"⟩ where
  orderly := ⟨by decide, by decide, by decide⟩
  network := .none
  logLevel := rfl
  logFormat := .none
  logFile := rfl
  bind := rfl

/-- The network is the file's, level and address are the environment's, the rest the defaults'. -/
theorem loadSettings_overridden :
    loadSettings (.ofFiles [("txdecode.ini", overriddenFile)]) (some "txdecode.ini")
      overridingEnvironment = .ok ⟨.testnet, "warn", .pretty, none, "1.2.3.4:5"⟩ :=
  (loadSettings_layers readsFile_overridden gives_overridden sets_overriding).2.1
    fun h => absurd h.2 (by decide)

end Overridden

end TxScope
