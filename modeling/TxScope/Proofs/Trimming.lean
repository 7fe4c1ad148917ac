import Mathlib.Data.List.TakeWhile
import TxScope.Proofs.Bytes
import TxScope.Text.Blank

/-!
# Trimming

Trimming takes the blanks off the two ends of a text, all of them and nothing else
(`Text.trim_eq_iff`), so blanks around a text never count (`Text.trim_blanks`).
-/

namespace TxScope

namespace Text

/-- `t` is the text without the blanks in front of it and behind it. -/
def TrimsTo (text t : String) : Prop :=
  ∃ before after, text.toList = before ++ t.toList ++ after ∧
    (∀ c ∈ before, isBlank c = true) ∧ (∀ c ∈ after, isBlank c = true) ∧
    (∀ c, t.toList.head? = some c → isBlank c = false) ∧
    ∀ c, t.toList.getLast? = some c → isBlank c = false

theorem trimStart_append {before cs : List Char} (h : ∀ c ∈ before, isBlank c = true) :
    trimStart (before ++ cs) = trimStart cs :=
  List.dropWhile_append_of_pos h

theorem trimEnd_append {after cs : List Char} (h : ∀ c ∈ after, isBlank c = true) :
    trimEnd (cs ++ after) = trimEnd cs := by
  have hrev : trimStart (after.reverse ++ cs.reverse) = trimStart cs.reverse :=
    trimStart_append fun c hc => h c (List.mem_reverse.1 hc)
  rw [trimEnd, List.reverse_append]
  exact congrArg List.reverse hrev

theorem trimStart_of_head {cs : List Char} (h : ∀ c, cs.head? = some c → isBlank c = false) :
    trimStart cs = cs := by
  rcases cs with _ | ⟨c, cs⟩
  · rfl
  · simp [trimStart, h c rfl]

theorem trimEnd_of_last {cs : List Char} (h : ∀ c, cs.getLast? = some c → isBlank c = false) :
    trimEnd cs = cs := by
  have hrev : trimStart cs.reverse = cs.reverse :=
    trimStart_of_head fun c hc => h c (by rwa [List.head?_reverse] at hc)
  rw [trimStart] at hrev
  rw [trimEnd, hrev, List.reverse_reverse]

/-- Only blanks are cut off in front, and all of them. -/
theorem exists_trimStart (cs : List Char) : ∃ before, cs = before ++ trimStart cs ∧
    (∀ c ∈ before, isBlank c = true) ∧ ∀ c, (trimStart cs).head? = some c → isBlank c = false := by
  refine ⟨cs.takeWhile isBlank, List.takeWhile_append_dropWhile.symm,
    fun c hc => List.mem_takeWhile_imp hc, fun c hc => ?_⟩
  have hhead := List.head?_dropWhile_not isBlank cs
  rw [trimStart] at hc
  rwa [hc] at hhead

theorem exists_trimEnd (cs : List Char) : ∃ after, cs = trimEnd cs ++ after ∧
    (∀ c ∈ after, isBlank c = true) ∧ ∀ c, (trimEnd cs).getLast? = some c → isBlank c = false := by
  obtain ⟨before, hcs, hbefore, hhead⟩ := exists_trimStart cs.reverse
  refine ⟨before.reverse, ?_, fun c hc => hbefore c (List.mem_reverse.1 hc), fun c hc => hhead c ?_⟩
  · have h := congrArg List.reverse hcs
    rwa [List.reverse_reverse, List.reverse_append] at h
  · rwa [trimEnd, List.getLast?_reverse] at hc

theorem trimsTo_trim (text : String) : TrimsTo text (trim text) := by
  obtain ⟨before, htext, hbefore, hhead⟩ := exists_trimStart text.toList
  obtain ⟨after, hrest, hafter, hlast⟩ := exists_trimEnd (trimStart text.toList)
  rw [TrimsTo, trim, String.toList_ofList]
  refine ⟨before, after, ?_, hbefore, hafter, fun c hc => hhead c ?_, hlast⟩
  · rw [List.append_assoc, ← hrest, ← htext]
  · rw [hrest, List.head?_append, hc, Option.some_or]

theorem trim_eq_iff {text t : String} : trim text = t ↔ TrimsTo text t := by
  constructor
  · rintro rfl
    exact trimsTo_trim text
  · rintro ⟨before, after, htext, hbefore, hafter, hhead, hlast⟩
    rw [trim, htext, List.append_assoc, trimStart_append hbefore]
    rcases ht : t.toList with _ | ⟨c, cs⟩
    · have hnone : trimEnd (trimStart after) = [] := by
        rw [trimStart, List.dropWhile_eq_nil_iff.2 hafter]
        rfl
      rw [List.nil_append, hnone, ← ht, String.ofList_toList]
    · rw [ht] at hhead hlast
      rw [trimStart_of_head (by simpa using hhead), trimEnd_append hafter, trimEnd_of_last hlast,
        ← ht, String.ofList_toList]

theorem trim_ofList_append {blanks : List Char} (h : ∀ c ∈ blanks, isBlank c = true)
    (text : String) : trim (String.ofList blanks ++ text) = trim text := by
  rw [trim, String.toList_append, String.toList_ofList, trimStart_append h, trim]

theorem trim_eq_self {text : String} (h : ∀ c ∈ text.toList, isBlank c = false) :
    trim text = text :=
  trim_eq_iff.2 ⟨[], [], by simp, nofun, nofun, fun c hc => h c (List.mem_of_head? hc),
    fun c hc => h c (List.mem_of_getLast? hc)⟩

/-- More blanks around a text do not count. -/
theorem trim_blanks {before after : List Char} (hbefore : ∀ c ∈ before, isBlank c = true)
    (hafter : ∀ c ∈ after, isBlank c = true) (text : String) :
    trim (String.ofList before ++ text ++ String.ofList after) = trim text := by
  obtain ⟨front, back, htext, hfront, hback, hends⟩ := trimsTo_trim text
  refine trim_eq_iff.2 ⟨before ++ front, back ++ after, ?_, ?_, ?_, hends⟩
  · simp [htext]
  · exact List.forall_mem_append.2 ⟨hbefore, hfront⟩
  · exact List.forall_mem_append.2 ⟨hback, hafter⟩

end Text

end TxScope
