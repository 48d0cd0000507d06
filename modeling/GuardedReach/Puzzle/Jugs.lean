/-
  The two-jug puzzle: jugs of a small and a big capacity start empty, and the big one is to hold
  exactly `goal` units.

  Register 0 is the small jug and register 1 the big one.  The actions are to fill, to empty and to
  pour, the small jug first.
-/
import GuardedReach.Puzzle.Basic

namespace GuardedReach

/-- A jug that is not full may be filled. -/
def fillJug (name : String) (jug : UInt8) (capacity : Int64) : ActionDecl :=
  { name, instructions := [.lessThan jug capacity, .assign jug capacity] }

/-- A jug that is not empty may be emptied. -/
def emptyJug (name : String) (jug : UInt8) : ActionDecl :=
  { name, instructions := [.notEqual jug 0, .assign jug 0] }

/-- A jug that is not empty may be poured into one that is not full. -/
def pourJug (name : String) (into jug : UInt8) (capacity : Int64) : ActionDecl :=
  { name
    instructions := [.notEqual jug 0, .lessThan into capacity, .boundedTransfer into jug capacity] }

/-- The two-jug puzzle. -/
def waterJugs (small big goal : Int64) : Puzzle :=
  { name := "water-jugs"
    registers := [{ name := "small", initial := 0 }, { name := "big", initial := 0 }]
    actions :=
      [fillJug "FillSmall" 0 small, fillJug "FillBig" 1 big, emptyJug "EmptySmall" 0,
        emptyJug "EmptyBig" 1, pourJug "SmallToBig" 1 0 big, pourJug "BigToSmall" 0 1 small]
    target := [.equal 1 goal] }

end GuardedReach
