import Mathlib.Data.String.Basic
import TxScope.Command.Arguments
import TxScope.Proofs.HexText

/-!
# Arguments of a command

A command named first, without a settings file, is the one that its own arguments make
(`Arguments.ofTexts_cons`). Hexadecimal text never looks like an option
(`Command.isPlain_encode`).
-/

namespace TxScope

theorem Network.ofText?_name (n : Network) : ofText? n.name = some n := by
  have h : lowerCase n.name = n.name := by
    rw [← String.toList_inj, lowerCase, String.toList_map]
    cases n <;> decide
  rw [ofText?, h]
  cases n <;> rfl

namespace Command

/-- An argument that is taken as a text, or as the value of an option. -/
def IsPlain (argument : String) : Prop := Dashed.ofText? argument = none

theorem isPlain_name (n : Network) : IsPlain n.name := by
  cases n <;> rfl

theorem isPlain_encode (bs : Bytes) : IsPlain (Hex.encode bs) := by
  have h : ∀ n < 16, Nat.digitChar n ≠ '-' := by decide
  cases bs with
  | nil => rfl
  | cons b bs =>
    have hb := b.toNat_lt
    have hd := h (b.toNat / 16) (by omega)
    simp [IsPlain, Dashed.ofText?, Hex.encode, Hex.encodeChars, Hex.digits, hd]

variable {form : Form} {g g' : Given} {a : String}

theorem read_value {option : String} (ha : IsPlain a) (hg : g.addValue option a = .ok g')
    (rest : List String) :
    read form false (some option) g (a :: rest) = read form false none g' rest := by
  rw [IsPlain] at ha
  simp [read, ha, hg, bind, Except.bind]

theorem read_text (ha : IsPlain a) (hg : g.addText form a = .ok g') (rest : List String) :
    read form false none g (a :: rest) = read form false none g' rest := by
  rw [IsPlain] at ha
  simp [read, ha, hg, bind, Except.bind]

theorem addValue_network (flags texts : List String) (n : Network) :
    Given.addValue ⟨[], flags, texts⟩ "network" n.name =
      .ok ⟨[("network", n.name)], flags, texts⟩ := by
  simp [Given.addValue, Given.value?, acceptsValue, Network.ofText?_name]

/-- The ways to ask for a transaction as JSON: its text is in `text`, or in `file`, or on the
standard input. -/
inductive AsksJson (n : Network) : List String → (text file : Option String) → Prop
  | input : AsksJson n ["decode", "--json", "--network", n.name] none none
  | file {f : String} (hne : f ≠ "") (hf : IsPlain f) :
    AsksJson n ["decode", "--json", "--network", n.name, "--file", f] none (some f)
  | text {t : String} (ht : IsPlain t) :
    AsksJson n ["decode", "--json", "--network", n.name, t] (some t) none
  | anyText (t : String) :
    AsksJson n ["decode", "--json", "--network", n.name, "--", t] (some t) none

end Command

namespace Arguments

open Command

variable {g : Given} {command : Command} {rest : List String} (n : Network)

/-- A command that is told no settings file. -/
theorem ofTexts_cons (name : Name) {first : String} (hname : Name.ofText? first = some name)
    (hfirst : IsPlain first) (hhelp : name ≠ .help)
    (hread : Command.read name.form false none .empty rest = .ok (.given g))
    (hconfig : g.value? "config" = none) (hcommand : commandOf name g = .ok command) :
    ofTexts (first :: rest) = .ok (.run none command) := by
  have houter : Command.read outerForm true none .empty (first :: rest) =
      .ok (.command .empty name rest) := by
    rw [IsPlain] at hfirst
    simp [Command.read, hfirst, hname]
  simp only [ofTexts, houter, bind, Except.bind]
  cases name with
  | help => exact absurd rfl hhelp
  | _ =>
    simp only [hread, hcommand, hconfig, pure, Except.pure]
    rfl

theorem read_decode (more : List String) :
    Command.read Name.decode.form false none .empty ("--json" :: "--network" :: n.name :: more) =
      Command.read Name.decode.form false none ⟨[("network", n.name)], ["json"], []⟩ more := by
  have hjson : Command.read Name.decode.form false none .empty
      ("--json" :: "--network" :: n.name :: more) =
        Command.read Name.decode.form false (some "network") ⟨[], ["json"], []⟩
          (n.name :: more) := rfl
  rw [hjson, read_value (isPlain_name n) (addValue_network _ _ n)]

theorem ofTexts_decode (file : Option String) (texts : List String) {more : List String}
    (hread : Command.read Name.decode.form false none ⟨[("network", n.name)], ["json"], []⟩ more =
      .ok (.given ⟨(file.map ("file", ·)).toList ++ [("network", n.name)], ["json"], texts⟩)) :
    ofTexts ("decode" :: "--json" :: "--network" :: n.name :: more) =
      .ok (.run none (.decode texts.head? file true (some n))) := by
  refine ofTexts_cons .decode rfl rfl (by decide) ((read_decode n more).trans hread) ?_ ?_
  · cases file <;> rfl
  · cases file <;> simp [commandOf, Given.value?, Network.ofText?_name, List.lookup_cons]

theorem ofTexts_asksJson {args : List String} {text file : Option String}
    (h : AsksJson n args text file) :
    ofTexts args = .ok (.run none (.decode text file true (some n))) := by
  cases h with
  | input => exact ofTexts_decode n none [] rfl
  | @file f hne hf =>
    have hg : Given.addValue ⟨[("network", n.name)], ["json"], []⟩ "file" f =
        .ok ⟨[("file", f), ("network", n.name)], ["json"], []⟩ := by
      simp [Given.addValue, Given.value?, acceptsValue, hne]
    exact ofTexts_decode n (some f) [] (read_value hf hg [])
  | @text t ht => exact ofTexts_decode n none [t] (read_text ht rfl [])
  | anyText t => exact ofTexts_decode n none [t] rfl

theorem ofTexts_disasm {text : String} (h : IsPlain text) :
    ofTexts ["disasm", text] = .ok (.run none (.disasm text)) :=
  ofTexts_cons .disasm rfl rfl (by decide) (read_text h rfl []) rfl rfl

theorem ofTexts_classify {text : String} (h : IsPlain text) :
    ofTexts ["classify", "--network", n.name, text] =
      .ok (.run none (.classify text (some n))) := by
  have hread : Command.read Name.classify.form false none .empty ["--network", n.name, text] =
      .ok (.given ⟨[("network", n.name)], [], [text]⟩) := by
    have hnetwork : Command.read Name.classify.form false none .empty ["--network", n.name, text] =
        Command.read Name.classify.form false (some "network") ⟨[], [], []⟩ [n.name, text] := rfl
    rw [hnetwork, read_value (isPlain_name n) (addValue_network _ _ n), read_text h rfl]
    rfl
  refine ofTexts_cons .classify rfl rfl (by decide) hread rfl ?_
  simp [commandOf, Given.value?, Network.ofText?_name]

end Arguments

end TxScope
