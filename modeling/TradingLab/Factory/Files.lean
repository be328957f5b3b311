import TradingLab.Factory.Manifest
import TradingLab.Json.PlainRoundTrip
import TradingLab.Store.Table

/-!
# Files of a results root

A root holds at most one file for each path, and a path is a list of names. What
is written once is never replaced: another text for the same path is a collision.
-/

namespace TradingLab.Factory

open List

structure File where
  path : List String
  text : List Char
deriving Repr, DecidableEq

abbrev Files : Type := Table File.path

abbrev RootCall (α : Type) : Type := Method Files Failure α

/-- The parts between the slashes. -/
def splitSlash : List Char → List (List Char)
  | [] => [[]]
  | c :: cs =>
      if c = '/' then [] :: splitSlash cs
      else match splitSlash cs with
        | [] => [[c]]
        | part :: parts => (c :: part) :: parts

def sealedNames : List String :=
  ["p10", "fresh_oos", "fresh-oos", "recent_reserve", "recent-reserve", "blind_oos", "blind-oos"]

def isSealed (part : List Char) : Bool :=
  sealedNames.any fun name => (part.map Char.toLower).tails.any name.toList.isPrefixOf

/-- The names of a path below a root. -/
def safePath (relative : String) : Except Failure (List String) := do
  raiseIf (relative.toList = [] ∨ '\\' ∈ relative.toList) (.mcf "invalid relative path")
  let parts := (splitSlash relative.toList).filter fun part => part ≠ [] ∧ part ≠ ['.']
  raiseIf (relative.toList.head? = some '/' ∨ ['.', '.'] ∈ parts)
    (.mcf "path traversal/absolute path")
  raiseIf (parts.any isSealed = true) (.mcf "sealed evidence/P10 path")
  return parts.map String.ofList

/-- A part of a path that is taken as it is. -/
structure PlainPart (part : List Char) : Prop where
  nonempty : part ≠ []
  dots : part ≠ ['.'] ∧ part ≠ ['.', '.']
  slash : '/' ∉ part ∧ '\\' ∉ part
  unsealed : isSealed part = false

variable {part : List Char} {parts : List (List Char)}

theorem splitSlash_plain (h : '/' ∉ part) : splitSlash part = [part] := by
  induction part with
  | nil => rfl
  | cons c cs ih =>
    rw [mem_cons, not_or] at h
    rw [splitSlash, if_neg (Ne.symm h.1), ih h.2]

theorem splitSlash_append (h : '/' ∉ part) (rest : List Char) :
    splitSlash (part ++ '/' :: rest) = part :: splitSlash rest := by
  induction part with
  | nil => rfl
  | cons c cs ih =>
    rw [mem_cons, not_or] at h
    rw [cons_append, splitSlash, if_neg (Ne.symm h.1), ih h.2]

/-- The parts with slashes between them. -/
def joinSlash : List (List Char) → List Char
  | [] => []
  | [part] => part
  | part :: parts => part ++ '/' :: joinSlash parts

theorem joinSlash_cons (part next : List Char) (parts : List (List Char)) :
    joinSlash (part :: next :: parts) = part ++ '/' :: joinSlash (next :: parts) := rfl

theorem splitSlash_joinSlash (hne : parts ≠ [])
    (h : ∀ part ∈ parts, '/' ∉ part) : splitSlash (joinSlash parts) = parts := by
  induction parts with
  | nil => exact (hne rfl).elim
  | cons part parts ih =>
    cases parts with
    | nil => exact splitSlash_plain (h part mem_cons_self)
    | cons next parts =>
      rw [joinSlash_cons, splitSlash_append (h part mem_cons_self),
        ih (by simp) fun p hp => h p (mem_cons_of_mem _ hp)]

theorem mem_joinSlash {c : Char} (h : c ∈ joinSlash parts) :
    c = '/' ∨ ∃ part ∈ parts, c ∈ part := by
  induction parts with
  | nil => cases h
  | cons part parts ih =>
    cases parts with
    | nil => exact .inr ⟨part, mem_cons_self, h⟩
    | cons next parts =>
      rw [joinSlash_cons, mem_append, mem_cons] at h
      rcases h with h | h | h
      · exact .inr ⟨part, mem_cons_self, h⟩
      · exact .inl h
      · rcases ih h with h | ⟨p, hp, hc⟩
        · exact .inl h
        · exact .inr ⟨p, mem_cons_of_mem _ hp, hc⟩

theorem head_joinSlash (hne : part ≠ []) (parts : List (List Char)) :
    (joinSlash (part :: parts)).head? = part.head? := by
  cases parts with
  | nil => rfl
  | cons next parts => rw [joinSlash_cons, head?_append_of_ne_nil _ hne]

/-- A path of plain parts is what its text says. -/
theorem safePath_joinSlash (h : ∀ p ∈ part :: parts, PlainPart p) :
    safePath (String.ofList (joinSlash (part :: parts))) =
      .ok ((part :: parts).map String.ofList) := by
  have hpart := h part mem_cons_self
  have hhead := head_joinSlash hpart.nonempty parts
  have hfilter : ((part :: parts).filter fun p => p ≠ [] ∧ p ≠ ['.']) = part :: parts := by
    rw [filter_eq_self]
    intro p hp
    have hplain := h p hp
    simp [hplain.nonempty, hplain.dots.1]
  unfold safePath
  rw [String.toList_ofList, splitSlash_joinSlash (by simp) fun p hp => (h p hp).slash.1]
  dsimp only
  rw [hfilter, hhead, raiseIf_neg, ok_bind, raiseIf_neg, ok_bind, raiseIf_neg]
  · rfl
  · rw [Bool.not_eq_true, any_eq_false]
    intro p hp
    rw [(h p hp).unsealed]
    exact Bool.false_ne_true
  · rintro (hslash | hdots)
    · apply hpart.slash.1
      exact mem_of_mem_head? hslash
    · exact (h _ hdots).dots.2 rfl
  · rintro (hnil | hback)
    · rw [hnil] at hhead
      cases part with
      | nil => exact hpart.nonempty rfl
      | cons c cs => cases hhead
    · rcases mem_joinSlash hback with hc | ⟨p, hp, hc⟩
      · revert hc
        decide
      · exact (h p hp).slash.2 hc

theorem safePath_names
    (h : ∀ p ∈ part :: parts, PlainPart p) {relative : String} {names : List String}
    (hrelative : joinSlash (part :: parts) = relative.toList)
    (hnames : part :: parts = names.map String.toList) : safePath relative = .ok names := by
  have hpath := safePath_joinSlash h
  rw [hrelative, String.ofList_toList, hnames, map_map] at hpath
  rw [hpath]
  congr 1
  conv_rhs => rw [← map_id names]
  apply map_congr_left
  intro name _
  exact String.ofList_toList

/-- `result-*.json` -/
def isResultName (name : String) : Bool :=
  "result-".toList.isPrefixOf name.toList && ".json".toList.isSuffixOf name.toList &&
    12 ≤ name.toList.length

/-- The result files of a directory, in order of their names. -/
def globResults (files : Files) (directory : List String) : List File :=
  (files.rows.filter fun f =>
      f.path.dropLast = directory ∧ (f.path.getLast?).any isResultName).insertionSort
    fun f g => !keyLt ((g.path.getLast?).getD "").toList ((f.path.getLast?).getD "").toList

/-- Another text for the same path is a collision. -/
def writeOnce (path : List String) (text : List Char) : RootCall Unit := do
  match ← Method.read fun files : Files => files.find? path with
  | some file => Method.check (raiseIf (file.text ≠ text) (.mcf "artifact collision"))
  | none => Method.modify fun files => files.put ⟨path, text⟩

theorem mem_globResults {files : Files} {directory : List String} {file : File} :
    file ∈ globResults files directory ↔
      file ∈ files.rows ∧ file.path.dropLast = directory ∧
        (file.path.getLast?).any isResultName = true := by
  unfold globResults
  rw [mem_insertionSort, mem_filter, decide_eq_true_eq]

end TradingLab.Factory
