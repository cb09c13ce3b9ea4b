import RelEngine.Plan.Basic
import RelEngine.Scan.Basic

/-!
Readers over two other readers: all pairs of rows, and outer joins.
-/
namespace RelEngine

variable {α β : Type}

namespace ProductState

def onLeft {γ : Type} : Move α γ → Move (ProductState α β) γ :=
  Move.within (·.left) fun left s => { s with left }

def onRight {γ : Type} : Move β γ → Move (ProductState α β) γ :=
  Move.within (·.right) fun right s => { s with right }

end ProductState

namespace JoinState

def onOuter {γ : Type} : Move α γ → Move (JoinState α β) γ :=
  Move.within (·.outer) fun outer s => { s with outer }

def onInner {γ : Type} : Move β γ → Move (JoinState α β) γ :=
  Move.within (·.inner) fun inner s => { s with inner }

end JoinState

namespace Scan

open ProductState in
/-- All pairs of rows, the left side in the outer loop. A name that both sides have is the left
side's. -/
def product (left : Scan α) (right : Scan β) : Scan (ProductState α β) where
  start := ⟨left.start, right.start, false⟩
  rowBound stores := (left.rowBound stores + 1) * right.rowBound stores
  has field := left.has field || right.has field
  read stores s field :=
    if left.has field then left.read stores s.left field else right.read stores s.right field
  rewind stores := do
    onLeft (left.rewind stores)
    let leftOnRow ← onLeft (left.next stores)
    modify ({ · with leftOnRow })
    onRight (right.rewind stores)
  next stores := do
    if !(← get).leftOnRow then return false
    if ← onRight (right.next stores) then return true
    onRight (right.rewind stores)
    let mut leftOnRow ← onLeft (left.next stores)
    if leftOnRow then leftOnRow ← onRight (right.next stores)
    modify ({ · with leftOnRow })
    return leftOnRow

/-- Whether a join reads a name from its inner side. The left table of the query is asked first: the
outer side, or in a flipped join the inner one. -/
def readsInner (flipped : Bool) (outerHas innerHas : Bool) : Bool :=
  if flipped then innerHas else !outerHas && innerHas

structure Join (α β : Type) where
  outer : Scan α
  inner : Scan β
  accepts : Condition
  flipped : Bool

namespace Join

open JoinState

def isInner (j : Join α β) (field : String) : Bool :=
  readsInner j.flipped (j.outer.has field) (j.inner.has field)

/-- A field of the pair of rows, without regard to missing matches. -/
def readPair (j : Join α β) (stores : Stores) (s : JoinState α β) (field : String) :
    Checked Value :=
  if j.isInner field then j.inner.read stores s.inner field else j.outer.read stores s.outer field

def read (j : Join α β) (stores : Stores) (s : JoinState α β) (field : String) : Checked Value :=
  if j.isInner field && s.innerNull then .ok none else j.readPair stores s field

def rewind (j : Join α β) (stores : Stores) : Move (JoinState α β) Unit := do
  onOuter (j.outer.rewind stores)
  let outerOnRow ← onOuter (j.outer.next stores)
  modify ({ · with outerOnRow })
  onInner (j.inner.rewind stores)
  modify ({ · with outerMatched := false, innerNull := false })

/-- Goes to the next outer row and back to the first inner one. -/
def advanceOuter (j : Join α β) (stores : Stores) : Move (JoinState α β) Bool := do
  let outerOnRow ← onOuter (j.outer.next stores)
  modify ({ · with outerOnRow, outerMatched := false })
  onInner (j.inner.rewind stores)
  return outerOnRow

/-- Goes to the next inner row that fulfils the condition. -/
def findMatch (j : Join α β) (stores : Stores) : Move (JoinState α β) Bool := do
  let found ← seek (onInner (j.inner.next stores))
    (fun s => j.accepts stores (j.readPair stores s)) (j.inner.rowBound stores + 1)
  if found then modify ({ · with outerMatched := true })
  return found

/-- The next match of the outer row. After the last match, or after the row that stood for a lack of
matches, the next outer row is tried; an outer row without a match is shown once. -/
def next (j : Join α β) (stores : Stores) : Move (JoinState α β) Bool := do
  if !(← get).outerOnRow then return false
  if (← get).innerNull then
    modify ({ · with innerNull := false })
    if !(← j.advanceOuter stores) then return false
  if ← j.findMatch stores then return true
  if (← get).outerMatched then
    if !(← j.advanceOuter stores) then return false
    if ← j.findMatch stores then return true
  modify ({ · with innerNull := true })
  return true

def scan (j : Join α β) : Scan (JoinState α β) where
  start := ⟨j.outer.start, j.inner.start, false, false, false⟩
  rowBound stores := (j.outer.rowBound stores + 1) * (j.inner.rowBound stores + 1)
  has field := j.outer.has field || j.inner.has field
  read := j.read
  rewind := j.rewind
  next := j.next

end Join

end Scan

end RelEngine
