import Std.Data.HashMap
import MemberStubs.Member

namespace MemberStubs

/-! Members by name, in the order in which their names arrived. The index maps each name to the
position of its member. -/

structure MemberTable where
  members : List Member
  index : Std.HashMap String Nat

namespace MemberTable

def empty : MemberTable :=
  ⟨[], ∅⟩

def size (table : MemberTable) : Nat :=
  table.members.length

def isEmpty (table : MemberTable) : Bool :=
  table.members.isEmpty

def names (table : MemberTable) : List String :=
  table.members.map Member.name

def contains (table : MemberTable) (name : String) : Bool :=
  table.index.contains name

def find? (table : MemberTable) (name : String) : Option Member :=
  table.index[name]?.bind fun position => table.members[position]?

/-- A name that is present keeps its position and takes the new member. -/
def insert (table : MemberTable) (member : Member) : MemberTable :=
  match table.index[member.name]? with
  | some position => { table with members := table.members.set position member }
  | none =>
      { members := table.members ++ [member]
        index := table.index.insert member.name table.members.length }

/-- A name that is present stands for a more derived declaration, which wins. -/
def insertInherited (table : MemberTable) (member : Member) : MemberTable × Bool :=
  if table.contains member.name then (table, false) else (table.insert member, true)

/-- Within one declaration the second half of an accessor completes the first, and any other
repetition of a name is an overload, of which the first stays. -/
def declare (table : MemberTable) (member : Member) : MemberTable :=
  match table.index[member.name]? with
  | some position =>
      { table with
        members := table.members.modify position fun first =>
          (first.completeWith? member).getD first }
  | none => table.insert member

def ofList (members : List Member) : MemberTable :=
  members.foldl insert empty

/-- The members of one declaration. -/
def ofDeclaration (members : List Member) : MemberTable :=
  members.foldl declare empty

/-- Members of an ancestor come behind those that are nearer. -/
def inherit (table : MemberTable) (ancestor : MemberTable) : MemberTable :=
  ancestor.members.foldl (fun current member => (current.insertInherited member).1) table

end MemberTable

end MemberStubs
