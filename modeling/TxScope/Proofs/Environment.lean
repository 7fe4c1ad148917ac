import Mathlib.Data.List.TakeWhile
import TxScope.Proofs.KeyPaths

/-!
# Variables of the environment

A variable whose name has the prefix sets the key behind it, and two underscores in the name are the
step into a table. The path of that key begins with the part of the name in front of the first two
underscores (`firstLevel_eq_of_head`), so in an orderly environment at most one variable has to do
with a key that is read (`entriesAt_environmentLayer`): without it the file's value stays
(`lookup_layered_of_none`), and with it the text is stored there (`lookup_layered_of_some`).
-/

namespace TxScope

namespace KeyPath

theorem ne_point_of_isNameChar {c : Char} (h : isNameChar c = true) : c ≠ '.' := by
  rintro rfl
  exact absurd h (by decide)

theorem steps?_eq_some {fuel : Nat} {cs : List Char} {steps : List PathStep}
    (h : steps? fuel cs = some steps) : cs = [] ∨ (∃ r, cs = '.' :: r) ∨ ∃ r, cs = '[' :: r := by
  unfold steps? at h
  split at h
  · exact .inl rfl
  · exact .inr (.inl ⟨_, rfl⟩)
  · exact .inr (.inr ⟨_, rfl⟩)
  · simp at h

/-- The path of a key without brackets begins with what stands in front of the first point, unless
the whole key is a single name. -/
theorem head_ofText {key : String} (h : '[' ∉ key.toList) :
    (ofText key).head.toList = key.toList.takeWhile (· ≠ '.') ∨ (ofText key).head = key := by
  simp only [ofText]
  split
  · rename_i hsteps
    left
    have hall := List.takeWhile_append_dropWhile (p := isNameChar) (l := key.toList)
    have hname : ∀ c ∈ key.toList.takeWhile isNameChar, decide (c ≠ '.') = true := fun c hc =>
      decide_eq_true (ne_point_of_isNameChar (List.all_eq_true.1 List.all_takeWhile c hc))
    rw [String.toList_ofList]
    conv_rhs => rw [← hall]
    rw [List.takeWhile_append_of_pos hname]
    rcases steps?_eq_some hsteps with hr | ⟨r, hr⟩ | ⟨r, hr⟩
    · rw [hr, List.takeWhile_nil, List.append_nil]
    · rw [hr, List.takeWhile_cons_of_neg (by simp), List.append_nil]
    · have hmem : '[' ∈ key.toList.dropWhile isNameChar := by rw [hr]; exact List.mem_cons_self
      exact absurd ((List.dropWhile_sublist _).subset hmem) h
  · exact .inr rfl

end KeyPath

namespace Settings

/-! ## Names -/

/-- What stands behind the prefix in the name of a variable, in small letters. -/
def behindPrefix? (name : String) : Option (List Char) :=
  let cs := name.toList.map smallLetter
  if environmentStart.isPrefixOf cs then some (cs.drop environmentStart.length) else none

theorem keyOfVariable?_eq (name : String) :
    keyOfVariable? name = (behindPrefix? name).map fun cs => String.ofList (joinLevels cs) := by
  simp only [keyOfVariable?, behindPrefix?]
  split <;> rfl

/-- The part of a name in front of its first two underscores. -/
def firstLevel : List Char → List Char
  | '_' :: '_' :: _ => []
  | c :: cs => c :: firstLevel cs
  | [] => []

theorem takeWhile_joinLevels {cs : List Char} (h : '.' ∉ cs) :
    (joinLevels cs).takeWhile (· ≠ '.') = firstLevel cs := by
  induction cs using joinLevels.induct with
  | case1 cs _ => simp [joinLevels, firstLevel]
  | case2 c cs hlevel ih =>
    have hc : c ≠ '.' := (List.ne_of_not_mem_cons h).symm
    rw [joinLevels, firstLevel, List.takeWhile_cons_of_pos (by simpa using hc),
      ih (List.not_mem_of_not_mem_cons h)]
    · exact hlevel
    · exact hlevel
  | case3 => rfl

/-- The names behind the prefix that are keys outside of tables. -/
def plainNames : List String := ["network", "log_level", "log_format", "log_file"]

/-- The names behind the prefix that are read. -/
def settingNames : List String := plainNames ++ ["server__bind"]

/-- The key, outside of all tables, that a name behind the prefix leads to. -/
def topKey (name : String) : String := String.ofList (firstLevel name.toList)

theorem mem_settingNames {name : String} :
    name ∈ settingNames ↔ name ∈ plainNames ∨ name = "server__bind" := by
  rw [settingNames, List.mem_append, List.mem_singleton]

theorem plainNames_spec {name : String} (h : name ∈ plainNames) :
    topKey name = name ∧ String.ofList (joinLevels name.toList) = name ∧
      KeyPath.ofText name = ⟨name, []⟩ ∧ '.' ∉ firstLevel name.toList := by
  simp only [plainNames, List.mem_cons, List.not_mem_nil, or_false] at h
  rcases h with rfl | rfl | rfl | rfl <;> exact ⟨rfl, rfl, rfl, by decide⟩

theorem topKey_server : topKey "server__bind" = "server" := rfl

theorem ofText_server :
    KeyPath.ofText (String.ofList (joinLevels "server__bind".toList)) =
      ⟨"server", [.key "bind"]⟩ := rfl

theorem point_not_mem_firstLevel {name : String} (h : name ∈ settingNames) :
    '.' ∉ firstLevel name.toList := by
  rcases mem_settingNames.1 h with h | rfl
  · exact (plainNames_spec h).2.2.2
  · decide

theorem head_ofText_variable {name : String} (h : name ∈ settingNames) :
    (KeyPath.ofText (String.ofList (joinLevels name.toList))).head = topKey name := by
  rcases mem_settingNames.1 h with h | rfl
  · obtain ⟨htop, hjoin, hpath, -⟩ := plainNames_spec h
    rw [htop, hjoin, hpath]
  · rw [ofText_server, topKey_server]

theorem bracket_not_mem_joinLevels {cs : List Char} (h : '[' ∉ cs) : '[' ∉ joinLevels cs := by
  induction cs using joinLevels.induct with
  | case1 cs ih =>
    have hcs : '[' ∉ cs := fun hmem => h (by simp [hmem])
    rw [joinLevels, List.mem_cons, not_or]
    exact ⟨by decide, ih hcs⟩
  | case2 c cs hlevel ih =>
    rw [List.mem_cons, not_or] at h
    rw [joinLevels, List.mem_cons, not_or]
    · exact ⟨h.1, ih h.2⟩
    · exact hlevel
  | case3 => exact h

/-- A variable whose key leads to a key that is read has the first level of it. -/
theorem firstLevel_eq_of_head {cs : List Char} {name : String} (hpoint : '.' ∉ cs)
    (hbracket : '[' ∉ cs) (hname : name ∈ settingNames)
    (h : (KeyPath.ofText (String.ofList (joinLevels cs))).head = topKey name) :
    firstLevel cs = firstLevel name.toList := by
  have hkey : '[' ∉ (String.ofList (joinLevels cs)).toList := by
    rw [String.toList_ofList]
    exact bracket_not_mem_joinLevels hbracket
  rw [← takeWhile_joinLevels hpoint]
  rcases KeyPath.head_ofText hkey with hhead | hhead
  · rw [h, topKey, String.toList_ofList, String.toList_ofList] at hhead
    exact hhead.symm
  · rw [hhead, topKey, String.ofList_inj] at h
    rw [h, List.takeWhile_eq_self_iff]
    intro c hc
    refine decide_eq_true fun hpoint => ?_
    exact point_not_mem_firstLevel hname (hpoint ▸ hc)

/-! ## Orderly environments -/

def namesIn (env : List (String × String)) : List (List Char) :=
  env.filterMap fun e => behindPrefix? e.1

/-- No two variables with the prefix have one name, the case of letters aside. The names have no
points or brackets in them, and one with the first level of a name that is read is this name. -/
structure Orderly (env : List (String × String)) : Prop where
  distinct : (namesIn env).Nodup
  plain : ∀ cs ∈ namesIn env, '.' ∉ cs ∧ '[' ∉ cs
  settled : ∀ cs ∈ namesIn env, ∀ name ∈ settingNames,
    firstLevel cs = firstLevel name.toList → cs = name.toList

theorem Orderly.sublist {env env' : List (String × String)} (h : Orderly env)
    (hsub : env'.Sublist env) : Orderly env' := by
  have hnames : (namesIn env').Sublist (namesIn env) := hsub.filterMap _
  exact ⟨h.distinct.sublist hnames, fun cs hcs => h.plain cs (hnames.subset hcs),
    fun cs hcs => h.settled cs (hnames.subset hcs)⟩

def textOf? (name : String) (env : List (String × String)) : Option String :=
  (env.find? fun e => behindPrefix? e.1 = some name.toList).map Prod.snd

section Cons

variable {e : String × String} {env : List (String × String)} {cs : List Char} {name : String}

theorem namesIn_cons_of_some (h : behindPrefix? e.1 = some cs) :
    namesIn (e :: env) = cs :: namesIn env :=
  List.filterMap_cons_some h

theorem environmentLayer_cons_of_none (h : behindPrefix? e.1 = none) :
    environmentLayer (e :: env) = environmentLayer env := by
  apply List.filterMap_cons_none
  simp [keyOfVariable?_eq, h]

theorem environmentLayer_cons_of_some (h : behindPrefix? e.1 = some cs) :
    environmentLayer (e :: env) =
      (String.ofList (joinLevels cs), .string e.2) :: environmentLayer env := by
  apply List.filterMap_cons_some
  simp [keyOfVariable?_eq, h]

theorem textOf?_cons_of_eq (h : behindPrefix? e.1 = some name.toList) :
    textOf? name (e :: env) = some e.2 := by
  simp [textOf?, h]

theorem textOf?_cons_of_ne (h : behindPrefix? e.1 ≠ some name.toList) :
    textOf? name (e :: env) = textOf? name env := by
  simp [textOf?, h]

theorem textOf?_eq_none (h : name.toList ∉ namesIn env) : textOf? name env = none := by
  rw [textOf?, Option.map_eq_none_iff, List.find?_eq_none]
  intro e he heq
  exact h (List.mem_filterMap.2 ⟨e, he, by simpa using heq⟩)

end Cons

/-- What an orderly environment puts under a key that is read comes from the variable of its name.
There is no second one, and the paths of the others begin elsewhere. -/
theorem entriesAt_environmentLayer {env : List (String × String)} (h : Orderly env) {name : String}
    (hname : name ∈ settingNames) :
    entriesAt (topKey name) (environmentLayer env) = (textOf? name env).toList.map
      fun text => (String.ofList (joinLevels name.toList), Value.string text) := by
  induction env with
  | nil => rfl
  | cons e env ih =>
    have htail := ih (h.sublist (List.sublist_cons_self e env))
    rcases hcs : behindPrefix? e.1 with _ | cs
    · rw [environmentLayer_cons_of_none hcs, htail,
        textOf?_cons_of_ne (by rw [hcs]; exact Option.some_ne_none _ |>.symm)]
    · have hnames : namesIn (e :: env) = cs :: namesIn env := namesIn_cons_of_some hcs
      have hmem : cs ∈ namesIn (e :: env) := by rw [hnames]; exact List.mem_cons_self
      rw [environmentLayer_cons_of_some hcs, entriesAt_cons]
      by_cases heq : cs = name.toList
      · have hfresh : name.toList ∉ namesIn env := by
          have hdistinct := h.distinct
          rw [hnames, heq] at hdistinct
          exact (List.nodup_cons.1 hdistinct).1
        rw [heq, if_pos (head_ofText_variable hname), htail, textOf?_eq_none hfresh,
          textOf?_cons_of_eq (by rw [hcs, heq])]
        rfl
      · have hhead : (KeyPath.ofText (String.ofList (joinLevels cs))).head ≠ topKey name :=
          fun hhead => heq (h.settled cs hmem name hname
            (firstLevel_eq_of_head (h.plain cs hmem).1 (h.plain cs hmem).2 hname hhead))
        rw [if_neg hhead, htail, textOf?_cons_of_ne (by rw [hcs]; simpa using heq)]

/-! ## The environment over a file -/

section Layered

variable {env : List (String × String)} {name text : String} (file : Table)

theorem lookup_layered_of_some (h : Orderly env) (hname : name ∈ settingNames)
    (htext : textOf? name env = some text) :
    lookup (topKey name) (layered file env) =
      some ((KeyPath.ofText (String.ofList (joinLevels name.toList))).stored (.string text)
        (lookup (topKey name) (placeAll file []))) := by
  rw [layered, lookup_placeAll, entriesAt_environmentLayer h hname, htext]
  rfl

theorem lookup_layered_of_none (h : Orderly env) (hname : name ∈ settingNames)
    (htext : textOf? name env = none) :
    lookup (topKey name) (layered file env) = lookup (topKey name) (placeAll file []) := by
  rw [layered, lookup_placeAll, entriesAt_environmentLayer h hname, htext]
  rfl

end Layered

/-! ## Variables that have to do with settings -/

/-- The first level of the name is that of a setting. -/
def concerns (name : String) : Bool :=
  (behindPrefix? name).any fun cs =>
    settingNames.any fun setting => firstLevel cs = firstLevel setting.toList

theorem concerns_of_eq {variableName name : String} (hname : name ∈ settingNames)
    (h : behindPrefix? variableName = some name.toList) : concerns variableName = true := by
  rw [concerns, h, Option.any_some, List.any_eq_true]
  exact ⟨name, hname, by simp⟩

theorem textOf?_filter {name : String} (hname : name ∈ settingNames)
    (env : List (String × String)) :
    textOf? name (env.filter fun e => concerns e.1) = textOf? name env := by
  rw [textOf?, textOf?, List.find?_filter]
  congr 2
  funext e
  by_cases h : behindPrefix? e.1 = some name.toList
  · simp [h, concerns_of_eq hname h]
  · simp [h]

end Settings

end TxScope
