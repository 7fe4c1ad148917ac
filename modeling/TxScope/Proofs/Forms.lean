import TxScope.Proofs.Tokens
import TxScope.Script.Shape
import TxScope.Script.Template

/-!
# The forms of output scripts

A standard form is one payload of fixed size between fixed bytes. Two forms of the same length begin
differently (`forms_pairwise`), so it does not matter in which order a script is tried against them:
a script has the shape that describes it, and one only (`ofScript_eq_iff`).
-/

namespace TxScope.Script

theorem slice_append {before payload after : Bytes} {n : Nat} (h : payload.length = n) :
    slice (before ++ payload ++ after) before.length (before.length + n) = payload := by
  rw [slice, List.append_assoc, List.drop_left, Nat.add_sub_cancel_left, List.take_left' h]

theorem framed?_eq_some_iff {before after script payload : Bytes} {size : Nat} :
    framed? before size after script = some payload ↔
      payload.length = size ∧ script = before ++ payload ++ after := by
  simp only [framed?]
  constructor
  · intro h
    split_ifs at h with hs
    obtain ⟨hlen, hscript⟩ := hs
    cases h
    refine ⟨?_, hscript⟩
    have hsum := congrArg List.length hscript
    simp only [List.length_append] at hsum
    omega
  · rintro ⟨hlen, rfl⟩
    rw [slice_append hlen, if_pos]
    simp only [List.length_append, hlen, and_self]

/-- Fixed bytes around a payload of fixed size, and what a script made of them is. -/
structure Form where
  before : Bytes
  size : Nat
  after : Bytes
  shape : Bytes → Shape

namespace Form

def length (f : Form) : Nat := f.before.length + f.size + f.after.length

/-- The script of this form around a payload. -/
def spell (f : Form) (payload : Bytes) : Bytes := f.before ++ payload ++ f.after

def read (f : Form) (script : Bytes) : Option Shape :=
  (framed? f.before f.size f.after script).map f.shape

/-- No script is of both forms, as its length or its first bytes tell. -/
def Apart (f g : Form) : Prop :=
  f.length ≠ g.length ∨ (¬ f.before <+: g.before ∧ ¬ g.before <+: f.before)

instance : DecidableRel Apart := fun f g =>
  inferInstanceAs (Decidable (f.length ≠ g.length ∨
    (¬ f.before <+: g.before ∧ ¬ g.before <+: f.before)))

variable {f g : Form} {payload : Bytes}

theorem length_spell (h : payload.length = f.size) : (f.spell payload).length = f.length := by
  simp only [spell, length, List.length_append, h]

theorem read_eq_some_iff {script : Bytes} {s : Shape} : f.read script = some s ↔
    ∃ payload, payload.length = f.size ∧ script = f.spell payload ∧ f.shape payload = s := by
  simp only [read, Option.map_eq_some_iff, framed?_eq_some_iff, and_assoc]
  rfl

theorem read_spell (h : payload.length = f.size) :
    f.read (f.spell payload) = some (f.shape payload) :=
  read_eq_some_iff.2 ⟨payload, h, rfl, rfl⟩

/-- What one form spells is not read by another that is apart from it: of two beginnings of one
script, one begins the other. -/
theorem Apart.read_eq_none (hfg : f.Apart g) (h : payload.length = g.size) :
    f.read (g.spell payload) = none := by
  by_contra hsome
  obtain ⟨s, hs⟩ := Option.ne_none_iff_exists'.1 hsome
  obtain ⟨payload', h', heq, -⟩ := read_eq_some_iff.1 hs
  rcases hfg with hlen | ⟨hfg, hgf⟩
  · apply hlen
    rw [← length_spell h', ← length_spell h, heq]
  · have hg : g.before <+: g.spell payload := ⟨payload ++ g.after, by simp [spell]⟩
    have hf : f.before <+: g.spell payload := ⟨payload' ++ f.after, by rw [heq]; simp [spell]⟩
    rcases List.prefix_or_prefix_of_prefix hf hg with hpre | hpre
    · exact hfg hpre
    · exact hgf hpre

end Form

namespace Template

/-- How many bytes stand between the opening and the closing bytes. -/
def payloadSize : Template → Nat
  | .p2wsh | .p2tr => 32
  | _ => 20

def shape : Template → Bytes → Shape
  | .p2pkh => .keyHash
  | .p2sh => .scriptHash
  | .p2wpkh => .witnessKeyHash
  | .p2wsh => .witnessScriptHash
  | .p2tr => .taproot

def form (t : Template) : Form := ⟨t.opening, t.payloadSize, t.closing, t.shape⟩

end Template

/-- A push of a public key and the opcode that checks a signature. -/
def keyForm (size : UInt8) : Form := ⟨[size], size.toNat, [opCheckSig], .publicKey⟩

/-- The forms in the order in which a script is tried against them. -/
def forms : List Form := Template.all.map Template.form ++ [keyForm 65, keyForm 33]

theorem forms_pairwise : forms.Pairwise Form.Apart := by decide

/-- No form begins like a data output, and none ends like a multisignature that is long enough. -/
theorem forms_ends {f : Form} (hf : f ∈ forms) : f.before ≠ [] ∧ f.before.head? ≠ some opReturn ∧
    (f.length < minimumMultisig ∨ f.after.getLast? = some opCheckSig) := by
  revert f
  decide

/-- The shapes are tried in the order of the forms, and the first form that reads the script settles
its shape. -/
theorem standardShape_eq (script : Bytes) : standardShape script =
    (forms.findSome? (·.read script)).getD
      (if minimumMultisig ≤ script.length ∧ script.getLast? = some opCheckMultisig then .multisig
        else .other) := by
  simp only [standardShape, forms, Template.all, List.map_cons, List.map_nil, List.cons_append,
    List.nil_append, List.findSome?_cons, List.findSome?_nil, Form.read, Template.form, keyForm,
    Template.opening, Template.closing, Template.payloadSize, UInt8.reduceToNat]
  rcases framed? [opDup, opHash160, 20] 20 [opEqualVerify, opCheckSig] script with _ | _ <;>
    [skip; rfl]
  rcases framed? [opHash160, 20] 20 [opEqual] script with _ | _ <;> [skip; rfl]
  rcases framed? [op0, 20] 20 [] script with _ | _ <;> [skip; rfl]
  rcases framed? [op0, 32] 32 [] script with _ | _ <;> [skip; rfl]
  rcases framed? [op1, 32] 32 [] script with _ | _ <;> [skip; rfl]
  rcases framed? [65] 65 [opCheckSig] script with _ | _ <;> [skip; rfl]
  rcases framed? [33] 33 [opCheckSig] script with _ | _ <;> rfl

/-- What a form spells is read by this form only, since all that is tried before it lies apart from
it. -/
theorem findSome?_read_spell {f : Form} (hf : f ∈ forms) {payload : Bytes}
    (h : payload.length = f.size) :
    forms.findSome? (·.read (f.spell payload)) = some (f.shape payload) := by
  obtain ⟨tried, rest, hforms⟩ := List.append_of_mem hf
  have hapart := forms_pairwise
  rw [hforms, List.pairwise_append] at hapart
  rw [List.findSome?_eq_some_iff]
  refine ⟨tried, f, rest, hforms, Form.read_spell h, fun g hg => ?_⟩
  exact (hapart.2.2 g hg f List.mem_cons_self).read_eq_none h

/-- Which shape a script has, whatever is tried first. -/
inductive Shape.Describes : Shape → Bytes → Prop
  | empty : Describes .empty []
  | data (rest : Bytes) : Describes (dataShape rest) (opReturn :: rest)
  | form {f : Form} {payload : Bytes} (hf : f ∈ forms) (h : payload.length = f.size) :
    Describes (f.shape payload) (f.spell payload)
  | multisig {script : Bytes} (hop : script.head? ≠ some opReturn)
    (hlen : minimumMultisig ≤ script.length) (hlast : script.getLast? = some opCheckMultisig) :
    Describes .multisig script
  | other {op : UInt8} {rest : Bytes} (hop : op ≠ opReturn)
    (hforms : ∀ f ∈ forms, f.read (op :: rest) = none)
    (hlast : ¬ (minimumMultisig ≤ (op :: rest).length ∧
      (op :: rest).getLast? = some opCheckMultisig)) : Describes .other (op :: rest)

theorem ofScript_of_head_ne {script : Bytes} (hne : script ≠ [])
    (hop : script.head? ≠ some opReturn) : Shape.ofScript script = standardShape script := by
  rcases script with _ | ⟨op, rest⟩
  · exact absurd rfl hne
  · exact if_neg fun h => hop (congrArg some h)

theorem describes_ofScript (script : Bytes) : (Shape.ofScript script).Describes script := by
  rcases script with _ | ⟨op, rest⟩
  · exact .empty
  by_cases hop : op = opReturn
  · subst hop
    rw [Shape.ofScript, if_pos rfl]
    exact .data rest
  rw [Shape.ofScript, if_neg hop, standardShape_eq]
  rcases hread : forms.findSome? (·.read (op :: rest)) with _ | s
  · rw [hread, Option.getD_none]
    rw [List.findSome?_eq_none_iff] at hread
    split_ifs with hlast
    · exact .multisig (by simpa using hop) hlast.1 hlast.2
    · exact .other hop hread hlast
  · rw [hread, Option.getD_some]
    obtain ⟨f, hf, hs⟩ := List.exists_of_findSome?_eq_some hread
    obtain ⟨payload, hlen, hscript, rfl⟩ := Form.read_eq_some_iff.1 hs
    rw [hscript]
    exact .form hf hlen

theorem head?_spell {f : Form} (hf : f ∈ forms) (payload : Bytes) :
    f.spell payload ≠ [] ∧ (f.spell payload).head? ≠ some opReturn := by
  obtain ⟨hne, hop, -⟩ := forms_ends hf
  obtain ⟨op, rest, hbefore⟩ := List.exists_cons_of_ne_nil hne
  simp_all [Form.spell]

theorem Form.read_eq_none_of_multisig {f : Form} (hf : f ∈ forms) {script : Bytes}
    (hlen : minimumMultisig ≤ script.length) (hlast : script.getLast? = some opCheckMultisig) :
    f.read script = none := by
  by_contra hsome
  obtain ⟨s, hs⟩ := Option.ne_none_iff_exists'.1 hsome
  obtain ⟨payload, hsize, rfl, -⟩ := Form.read_eq_some_iff.1 hs
  obtain ⟨-, -, hshort | hend⟩ := forms_ends hf
  · rw [Form.length_spell hsize] at hlen
    omega
  · rw [Form.spell, List.getLast?_append, hend] at hlast
    cases hlast

theorem Shape.Describes.ofScript_eq {s : Shape} {script : Bytes} (h : s.Describes script) :
    Shape.ofScript script = s := by
  cases h with
  | empty => rfl
  | data rest => rfl
  | form hf hlen =>
    obtain ⟨hne, hop⟩ := head?_spell hf _
    rw [ofScript_of_head_ne hne hop, standardShape_eq, findSome?_read_spell hf hlen]
    rfl
  | multisig hop hlen hlast =>
    have hne : script ≠ [] := by
      rintro rfl
      cases hlast
    have hread : forms.findSome? (·.read script) = none :=
      List.findSome?_eq_none_iff.2 fun f hf => Form.read_eq_none_of_multisig hf hlen hlast
    rw [ofScript_of_head_ne hne hop, standardShape_eq, hread, Option.getD_none,
      if_pos ⟨hlen, hlast⟩]
  | other hop hforms hlast =>
    rw [Shape.ofScript, if_neg hop, standardShape_eq, List.findSome?_eq_none_iff.2 hforms,
      Option.getD_none, if_neg hlast]

theorem ofScript_eq_iff {s : Shape} {script : Bytes} :
    Shape.ofScript script = s ↔ s.Describes script :=
  ⟨fun h => h ▸ describes_ofScript script, Shape.Describes.ofScript_eq⟩

/-! ## The shape of each form -/

namespace Template

theorem mem_all (t : Template) : t ∈ all := by
  cases t <;> decide

theorem form_mem (t : Template) : t.form ∈ forms :=
  List.mem_append_left _ (List.mem_map_of_mem t.mem_all)

end Template

theorem mem_forms_iff {f : Form} :
    f ∈ forms ↔ (∃ t : Template, f = t.form) ∨ f = keyForm 65 ∨ f = keyForm 33 := by
  simp only [forms, List.mem_append, List.mem_map, Template.mem_all, true_and, List.mem_cons,
    List.not_mem_nil, or_false, eq_comm]

/-- A data output breaks off in a length field of two bytes, or is read with its payload or none. -/
theorem dataShape_cases (rest : Bytes) : (∃ payload, dataShape rest = .data payload) ∨
    ∃ cut, rest = 0x4d :: cut ∧ cut.length < 2 ∧ dataShape rest = .cutData (2 + cut.length) := by
  rcases rest with _ | ⟨push, rest⟩
  · exact .inl ⟨none, rfl⟩
  simp only [dataShape]
  by_cases hdirect : push ≤ maxDirectPush
  · rw [if_pos hdirect]
    exact .inl ⟨_, rfl⟩
  rw [if_neg hdirect]
  rcases hfield : LengthField.ofOpcode? push with _ | _ | _ | _
  · exact .inl ⟨none, rfl⟩
  · rcases rest with _ | ⟨size, rest⟩ <;> exact .inl ⟨_, rfl⟩
  · obtain rfl : push = 0x4d := LengthField.ofOpcode?_eq_some_iff.1 hfield
    by_cases hcut : rest.length < 2
    · exact .inr ⟨rest, rfl, hcut, if_pos hcut⟩
    · exact .inl ⟨_, if_neg hcut⟩
  · exact .inl ⟨none, rfl⟩

theorem dataShape_cut {cut : Bytes} (h : cut.length < 2) :
    dataShape (0x4d :: cut) = .cutData (2 + cut.length) := if_pos h

/-- The hash, program or key of a script of a standard form. -/
def Shape.inner? : Shape → Option Bytes
  | .keyHash bs | .scriptHash bs | .witnessKeyHash bs | .witnessScriptHash bs | .taproot bs
  | .publicKey bs => some bs
  | _ => none

theorem Form.inner?_shape {f : Form} (hf : f ∈ forms) (payload : Bytes) :
    (f.shape payload).inner? = some payload := by
  rcases mem_forms_iff.1 hf with ⟨t, rfl⟩ | rfl | rfl
  · cases t <;> rfl
  · rfl
  · rfl

theorem inner?_dataShape (rest : Bytes) : (dataShape rest).inner? = none := by
  rcases dataShape_cases rest with ⟨_, h⟩ | ⟨_, -, -, h⟩ <;> rw [h] <;> rfl

/-- What is read inside a script is the payload of a form that the script is written in. -/
theorem exists_form_of_inner? {script payload : Bytes}
    (h : (Shape.ofScript script).inner? = some payload) :
    ∃ f ∈ forms, f.shape payload = Shape.ofScript script ∧ payload.length = f.size ∧
      script = f.spell payload := by
  have hdescribes := describes_ofScript script
  generalize Shape.ofScript script = s at h hdescribes
  cases hdescribes with
  | empty => cases h
  | data rest => cases (inner?_dataShape rest).symm.trans h
  | form hf hlen =>
    obtain rfl := Option.some.inj ((Form.inner?_shape hf _).symm.trans h)
    exact ⟨_, hf, rfl, hlen, rfl⟩
  | multisig => cases h
  | other => cases h

/-- A script has the shape of a template exactly if it is written as the template's form. -/
theorem ofScript_eq_shape_iff {t : Template} {script payload : Bytes} :
    Shape.ofScript script = t.shape payload ↔
      payload.length = t.payloadSize ∧ script = t.form.spell payload := by
  constructor
  · intro h
    obtain ⟨f, hf, hshape, hlen, rfl⟩ := exists_form_of_inner?
      ((congrArg Shape.inner? h).trans (Form.inner?_shape t.form_mem payload))
    rw [h] at hshape
    rcases mem_forms_iff.1 hf with ⟨t', rfl⟩ | rfl | rfl
    · cases t <;> cases t' <;> cases hshape <;> exact ⟨hlen, rfl⟩
    · cases t <;> cases hshape
    · cases t <;> cases hshape
  · rintro ⟨hlen, rfl⟩
    exact (Shape.Describes.form t.form_mem hlen).ofScript_eq

/-- Inside a script of a template's shape stand the bytes behind the opening. -/
theorem slice_of_shape {t : Template} {script payload : Bytes}
    (h : Shape.ofScript script = t.shape payload) :
    slice script t.opening.length (t.opening.length + t.payloadSize) = payload := by
  obtain ⟨hlen, rfl⟩ := ofScript_eq_shape_iff.1 h
  exact slice_append hlen

/-- The scripts of the taproot form, told by their length and first bytes. -/
theorem ofScript_eq_taproot_iff {script : Bytes} : (∃ key, Shape.ofScript script = .taproot key) ↔
    script.length = 34 ∧ [op1, 32] <+: script := by
  constructor
  · rintro ⟨key, h⟩
    obtain ⟨hlen, rfl⟩ := ofScript_eq_shape_iff (t := .p2tr) |>.1 h
    exact ⟨Form.length_spell (f := Template.p2tr.form) hlen, key, (List.append_nil _).symm⟩
  · rintro ⟨hlen, key, rfl⟩
    have hkey : key.length = 32 := by simpa using hlen
    exact ⟨key, ofScript_eq_shape_iff (t := .p2tr) |>.2 ⟨hkey, (List.append_nil _).symm⟩⟩

/-- What is tried behind the taproot form takes no script of that form. -/
theorem later_forms_refuse {script : Bytes} (h : script.length = 34 ∧ [op1, 32] <+: script) :
    (keyForm 65).read script = none ∧ (keyForm 33).read script = none ∧
      script.length < minimumMultisig := by
  obtain ⟨key, hshape⟩ := ofScript_eq_taproot_iff.2 h
  have hlen : script.length < minimumMultisig := by
    rw [h.1]
    decide
  obtain ⟨hkey, rfl⟩ := ofScript_eq_shape_iff (t := .p2tr) |>.1 hshape
  have h65 : (keyForm 65).Apart Template.p2tr.form := by decide
  have h33 : (keyForm 33).Apart Template.p2tr.form := by decide
  exact ⟨h65.read_eq_none hkey, h33.read_eq_none hkey, hlen⟩

theorem ofScript_eq_publicKey_iff {script key : Bytes} : Shape.ofScript script = .publicKey key ↔
    (key.length = 65 ∧ script = (keyForm 65).spell key) ∨
      (key.length = 33 ∧ script = (keyForm 33).spell key) := by
  constructor
  · intro h
    obtain ⟨f, hf, hshape, hlen, hscript⟩ :=
      exists_form_of_inner? (congrArg Shape.inner? h : _ = some key)
    rw [h] at hshape
    rcases mem_forms_iff.1 hf with ⟨t, rfl⟩ | rfl | rfl
    · cases t <;> cases hshape
    · exact .inl ⟨hlen, hscript⟩
    · exact .inr ⟨hlen, hscript⟩
  · rintro (⟨hlen, rfl⟩ | ⟨hlen, rfl⟩)
    · exact (Shape.Describes.form (mem_forms_iff.2 (.inr (.inl rfl))) hlen).ofScript_eq
    · exact (Shape.Describes.form (mem_forms_iff.2 (.inr (.inr rfl))) hlen).ofScript_eq

theorem slice_of_publicKey {script key : Bytes} (h : Shape.ofScript script = .publicKey key) :
    slice script 1 (script.length - 1) = key := by
  rcases ofScript_eq_publicKey_iff.1 h with ⟨hlen, rfl⟩ | ⟨hlen, rfl⟩
  · rw [Form.length_spell (f := keyForm 65) hlen]
    exact slice_append hlen
  · rw [Form.length_spell (f := keyForm 33) hlen]
    exact slice_append hlen

theorem ofScript_eq_empty_iff {script : Bytes} : Shape.ofScript script = .empty ↔ script = [] := by
  constructor
  · intro h
    have hdescribes := describes_ofScript script
    generalize Shape.ofScript script = s at h hdescribes
    cases hdescribes with
    | empty => rfl
    | data rest =>
      rcases dataShape_cases rest with ⟨_, hdata⟩ | ⟨_, -, -, hdata⟩ <;> cases hdata.symm.trans h
    | form hf _ => cases (Form.inner?_shape hf _).symm.trans (congrArg Shape.inner? h)
    | multisig => cases h
    | other => cases h
  · rintro rfl
    rfl

/-- What is read behind the opcode of a data output is the shape of a data output. -/
theorem ofScript_eq_of_data_iff {s : Shape} {script : Bytes}
    (hs : (∃ payload, s = .data payload) ∨ ∃ n, s = .cutData n) :
    Shape.ofScript script = s ↔ ∃ rest, script = opReturn :: rest ∧ dataShape rest = s := by
  constructor
  · intro h
    have hdescribes := describes_ofScript script
    rw [h] at hdescribes
    have hinner : s.inner? = none := by
      rcases hs with ⟨payload, rfl⟩ | ⟨n, rfl⟩ <;> rfl
    cases hdescribes with
    | data rest => exact ⟨rest, rfl, rfl⟩
    | form hf _ => cases (Form.inner?_shape hf _).symm.trans hinner
    | empty => rcases hs with ⟨_, hs⟩ | ⟨_, hs⟩ <;> cases hs
    | multisig => rcases hs with ⟨_, hs⟩ | ⟨_, hs⟩ <;> cases hs
    | other => rcases hs with ⟨_, hs⟩ | ⟨_, hs⟩ <;> cases hs
  · rintro ⟨rest, rfl, rfl⟩
    rfl

/-- The scripts that begin with the opcode of a data output have the shape of one. -/
theorem ofScript_eq_data_or_cut_iff {script : Bytes} :
    ((∃ payload, Shape.ofScript script = .data payload) ∨ ∃ n, Shape.ofScript script = .cutData n) ↔
      ∃ rest, script = opReturn :: rest := by
  constructor
  · intro h
    obtain ⟨rest, hscript, -⟩ := (ofScript_eq_of_data_iff h).1 rfl
    exact ⟨rest, hscript⟩
  · rintro ⟨rest, rfl⟩
    rcases dataShape_cases rest with h | ⟨cut, -, -, h⟩
    · exact .inl h
    · exact .inr ⟨_, h⟩

theorem ofScript_eq_cutData_iff {script : Bytes} : (∃ n, Shape.ofScript script = .cutData n) ↔
    ∃ cut, cut.length < 2 ∧ script = opReturn :: 0x4d :: cut := by
  constructor
  · rintro ⟨n, h⟩
    obtain ⟨rest, rfl, hrest⟩ := (ofScript_eq_of_data_iff (.inr ⟨n, rfl⟩)).1 h
    rcases dataShape_cases rest with ⟨payload, hdata⟩ | ⟨cut, rfl, hcut, -⟩
    · cases hdata.symm.trans hrest
    · exact ⟨cut, hcut, rfl⟩
  · rintro ⟨cut, hcut, rfl⟩
    exact ⟨_, dataShape_cut hcut⟩

end TxScope.Script
