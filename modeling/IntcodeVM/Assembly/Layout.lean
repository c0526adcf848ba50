import IntcodeVM.Assembly.Source
import Std.Data.ExtTreeMap

namespace IntcodeVM.Assembly

structure Labels where
  addresses : Std.ExtTreeMap (List Char) Nat := ∅

namespace Labels

def find? (labels : Labels) (name : List Char) : Option Nat := labels.addresses[name]?

def define (labels : Labels) (name : List Char) (address : Nat) : Labels :=
  ⟨labels.addresses.insert name address⟩

theorem find?_define (labels : Labels) (name other : List Char) (address : Nat) :
    (labels.define name address).find? other =
      if other = name then some address else labels.find? other := by
  simp only [define, find?, Std.ExtTreeMap.getElem?_insert, Std.compare_eq_iff_eq]
  simp only [@eq_comm _ name other]

@[simp] theorem find?_empty (name : List Char) : ({} : Labels).find? name = none := by
  simp [find?]

@[ext] theorem ext_find? {l m : Labels} (h : ∀ name, l.find? name = m.find? name) : l = m := by
  obtain ⟨l⟩ := l
  obtain ⟨m⟩ := m
  exact congrArg Labels.mk (Std.ExtTreeMap.ext_getElem? h)

end Labels

def defineLabels (line address : Nat) : List (List Char) → Labels → Except AssemblyError Labels
  | [], labels => .ok labels
  | name :: rest, labels =>
    if (labels.find? name).isSome then .error ⟨line, .duplicateLabel name⟩
    else defineLabels line address rest (labels.define name address)

structure Placed where
  address : Nat
  statement : Statement
  deriving DecidableEq, Repr

structure Layout where
  labels : Labels
  statements : List Placed

def layoutFrom (address : Nat) (labels : Labels) : List Line → Except AssemblyError Layout
  | [] => .ok ⟨labels, []⟩
  | line :: rest => do
    let labels ← defineLabels line.number address line.labels labels
    match ← line.statement? with
    | none => layoutFrom address labels rest
    | some s =>
      let layout ← layoutFrom (address + s.size) labels rest
      return { layout with statements := ⟨address, s⟩ :: layout.statements }

def layout (source : List Char) : Except AssemblyError Layout :=
  layoutFrom 0 {} (sourceLines source)

end IntcodeVM.Assembly
