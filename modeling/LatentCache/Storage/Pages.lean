/-!
# Pages of a map

A map is divided into pages. A commit writes to pages that hold nothing of the state before it, and
the pages that it gives up may be used again from the next commit but one on.
-/

namespace LatentCache

structure Pages where
  limit : Nat
  /-- The first page that was never used. -/
  next : Nat
  commit : Nat
  /-- The page that holds the list of released pages. -/
  register? : Option Nat := none
  /-- The pages that earlier commits gave up, the oldest commit first. -/
  released : List (Nat × List Nat) := []
  /-- The latest commit whose pages the commit in progress uses again. -/
  source? : Option Nat := none
  /-- The pages of earlier commits that are ready to be used again, in ascending order. -/
  reusable : List Nat := []
  /-- The pages that the commit in progress took; a run of pages counts with its first one. -/
  fresh : List Nat := []
  /-- The pages that the commit in progress gave up. -/
  givenUp : List Nat := []

namespace Pages

def width : Nat := 4096

def place (page : Nat) : List Nat → List Nat
  | [] => [page]
  | p :: rest => if page < p then page :: p :: rest else p :: place page rest

def placeAll (pages : List Nat) (ascending : List Nat) : List Nat :=
  pages.foldl (fun ps page => place page ps) ascending

/-- The lowest start of `count` consecutive pages in an ascending list. -/
def firstRun? (count : Nat) : List Nat → Option Nat
  | [] => none
  | p :: rest =>
    if (p :: rest).take count == List.range' p count then some p else firstRun? count rest

/-- Makes the pages of earlier commits ready, one commit after the other, until there are `count`
consecutive ones among them. The pages of the last commit stay as they are. -/
def gather (count : Nat) (p : Pages) : List (Nat × List Nat) → Pages
  | [] => { p with released := [] }
  | (commit, pages) :: later =>
    if (firstRun? count p.reusable).isNone && commit + 1 < p.commit then
      gather count
        { p with source? := some commit, reusable := placeAll pages p.reusable } later
    else { p with released := (commit, pages) :: later }

/-- Takes `count` consecutive pages, used ones before new ones. One page of the map stays unused
at least. -/
def take? (count : Nat) (p : Pages) : Option (Nat × Pages) :=
  let p := gather count p p.released
  match firstRun? count p.reusable with
  | some first =>
    some (first, { p with
      reusable := p.reusable.filter fun page => page < first || first + count ≤ page
      fresh := first :: p.fresh })
  | none =>
    if p.next + count < p.limit then
      some (p.next, { p with next := p.next + count, fresh := p.next :: p.fresh })
    else none

/-- A page to write to in the place of one with earlier contents. -/
def renew? (page : Nat) (p : Pages) : Option (Nat × Pages) :=
  if p.fresh.contains page then some (page, p)
  else do
    let (copy, p) ← p.take? 1
    return (copy, { p with givenUp := page :: p.givenUp })

/-- Gives up a run of pages. Those that the commit in progress took are ready at once if it uses
pages of earlier commits again. -/
def giveUp (first count : Nat) (p : Pages) : Pages :=
  let run := List.range' first count
  if p.fresh.contains first && p.source?.isSome then
    { p with fresh := p.fresh.erase first, reusable := placeAll run p.reusable }
  else { p with fresh := p.fresh.erase first, givenUp := run ++ p.givenUp }

/-- A page to write the list of released pages to, if the commit in progress changes it. -/
def renewRegister? (p : Pages) : Option Pages :=
  if p.source?.isNone && p.givenUp.isEmpty then some p
  else do
    let (page, p) ← match p.register? with
      | some page => p.renew? page
      | none => p.take? 1
    return { p with register? := some page }

def close? (p : Pages) : Option Pages := do
  let p ← p.renewRegister?
  let left := match p.source? with
    | some commit => [(commit, p.reusable)]
    | none => []
  return {
    limit := p.limit
    next := p.next
    commit := p.commit + 1
    register? := p.register?
    released := (left ++ p.released ++ [(p.commit, p.givenUp)]).filter (!·.2.isEmpty) }

end Pages

end LatentCache
