import Std.Data.TreeSet
import GrammarComparison.Derivation
import GrammarComparison.Event
import GrammarComparison.Language
import GrammarComparison.Queue

/-! # Enumerating the strings of a grammar

Breadth-first search over sentential forms.  A state is a form with the number of steps that led to
it.  The search takes states off a queue: it drops forms that are too long or were met before,
collects the spelling of forms without non-terminals, and queues the successors of the others unless
the depth bound is reached.  A limit on the number of states taken ends the search early and leaves
states in the queue.

`Search.step?` is one round of the search and `Search.run` its repetition; the search ends for every
grammar because each state weighs more than all the states that it is replaced by
(`Search.load_step?`). -/

namespace GrammarComparison

/-! ### States -/

/-- A form and the number of steps that led to it. -/
structure State where
  form : Word
  depth : Nat
  deriving DecidableEq, Repr

/-- The states whose forms were met, the latest first, with an index of the forms. -/
structure Visited where
  states : List State
  index : Std.TreeSet Word
  mem_index_iff : ∀ w, w ∈ index ↔ w ∈ states.map State.form

namespace Visited

/-- Nothing met so far. -/
def empty : Visited := ⟨[], {}, by simp⟩

/-- Whether the form was met. -/
def contains (v : Visited) (w : Word) : Bool := v.index.contains w

/-- The number of states. -/
def size (v : Visited) : Nat := v.states.length

/-- Notes the state. -/
def insert (v : Visited) (x : State) : Visited :=
  ⟨x :: v.states, v.index.insert x.form, fun w => by
    rw [Std.TreeSet.mem_insert, v.mem_index_iff, List.map_cons, List.mem_cons,
      Std.LawfulEqCmp.compare_eq_iff_eq, eq_comm]⟩

theorem contains_iff {v : Visited} {w : Word} : v.contains w ↔ w ∈ v.states.map State.form :=
  v.mem_index_iff w

end Visited

/-! ### Rounds of the search -/

/-- The search at some point of its course. -/
structure Search where
  queue : Queue State
  visited : Visited
  /-- The strings collected, the latest first. -/
  found : List (List Char)
  /-- The number of states taken off the queue. -/
  steps : Nat

namespace Search

/-- The search before its first step: the start symbol is queued. -/
def start (A : NonTerminal) : Search := ⟨.single ⟨[.nonTerminal A], 0⟩, .empty, [], 0⟩

/-- The states that follow `x`. -/
def next (g : Grammar) (x : State) : List State :=
  (g.successors x.form).map fun w => ⟨w, x.depth + 1⟩

/-- What taking the state `x` off the queue does, where `rest` is left of the queue. -/
def take (g : Grammar) (b : Bounds) (s : Search) (x : State) (rest : Queue State) : Search :=
  if b.exceededBy x.form || s.visited.contains x.form then
    { s with queue := rest, steps := s.steps + 1 }
  else if x.form.isTerminal then
    ⟨rest, s.visited.insert x, x.form.spelling :: s.found, s.steps + 1⟩
  else if b.maxDepth ≤ x.depth then
    ⟨rest, s.visited.insert x, s.found, s.steps + 1⟩
  else
    ⟨rest.pushAll (next g x), s.visited.insert x, s.found, s.steps + 1⟩

/-- One round of the search: `none` if the queue is empty or the step limit reached. -/
def step? (g : Grammar) (b : Bounds) (limit : Option Nat) (s : Search) : Option Search :=
  match s.queue.pop? with
  | none => none
  | some (x, rest) => if limit.any (· ≤ s.steps) then none else some (s.take g b x rest)

/-! ### The search ends -/

/-- The greatest number of productions of a head. -/
def fanout (g : Grammar) : Nat := g.rules.entries.foldr (fun e n => max e.2.words.length n) 0

/-- How many states at most follow a state with `n` steps left, itself included. -/
def weight (p : Nat) : Nat → Nat
  | 0 => 1
  | n + 1 => p * weight p n + 1

/-- The weight of the states of a queue. -/
def load (g : Grammar) (b : Bounds) : List State → Nat
  | [] => 0
  | x :: xs => weight (fanout g) (b.maxDepth - x.depth) + load g b xs

theorem weight_pos (p n : Nat) : 0 < weight p n := by cases n <;> simp [weight]

theorem length_alternatives_le (g : Grammar) (A : NonTerminal) :
    (g.alternatives A).length ≤ fanout g := by
  obtain ⟨⟨es, hes⟩⟩ := g
  simp only [Grammar.alternatives, Grammar.alternatives?, OrderedMap.get?, fanout]
  clear hes
  induction es with
  | nil => simp [OrderedMap.find?]
  | cons e es ih =>
    obtain ⟨B, as⟩ := e
    by_cases h : B = A
    · simp only [OrderedMap.find?, h, if_true, List.foldr_cons]
      exact Nat.le_max_left ..
    · simp only [OrderedMap.find?, h, if_false, List.foldr_cons]
      exact Nat.le_trans ih (Nat.le_max_right ..)

theorem length_successors_le (g : Grammar) (w : Word) : (g.successors w).length ≤ fanout g := by
  unfold Grammar.successors
  split
  · simp
  · simpa using length_alternatives_le g _

theorem load_next_lt {g : Grammar} {b : Bounds} {x : State} (h : x.depth < b.maxDepth) :
    load g b (next g x) < load g b [x] := by
  have hsplit : b.maxDepth - x.depth = (b.maxDepth - (x.depth + 1)) + 1 := by omega
  have hmap : load g b (next g x) =
      (g.successors x.form).length * weight (fanout g) (b.maxDepth - (x.depth + 1)) := by
    unfold next
    induction g.successors x.form with
    | nil => simp [load]
    | cons w ws ih =>
      simp only [List.map_cons, load, ih, List.length_cons, Nat.succ_mul, Nat.add_comm]
  have hle := Nat.mul_le_mul_right (weight (fanout g) (b.maxDepth - (x.depth + 1)))
    (length_successors_le g x.form)
  rw [hmap]
  simp only [load, hsplit, weight]
  omega

theorem load_append (g : Grammar) (b : Bounds) (xs ys : List State) :
    load g b (xs ++ ys) = load g b xs + load g b ys := by
  induction xs with
  | nil => simp [load]
  | cons x xs ih => simp only [List.cons_append, load, ih, Nat.add_assoc]

theorem load_single_pos (g : Grammar) (b : Bounds) (x : State) : 0 < load g b [x] := by
  simpa [load] using weight_pos _ _

/-- A round of the search makes its queue lighter. -/
theorem load_step? {g : Grammar} {b : Bounds} {limit : Option Nat} {s t : Search}
    (h : s.step? g b limit = some t) :
    load g b t.queue.toList < load g b s.queue.toList := by
  unfold step? at h
  split at h
  · simp at h
  · next x rest hpop =>
    have hx := load_single_pos g b x
    have hload : load g b s.queue.toList = load g b [x] + load g b rest.toList := by
      rw [Queue.toList_of_pop? hpop, ← load_append]; rfl
    split at h
    · simp at h
    · obtain rfl := Option.some.inj h
      have hrest : load g b rest.toList < load g b [x] + load g b rest.toList :=
        Nat.lt_add_of_pos_left hx
      rw [hload]
      unfold take
      split
      · exact hrest
      · split
        · exact hrest
        · split
          · exact hrest
          · next hdepth =>
            have := load_next_lt (g := g) (Nat.lt_of_not_le hdepth)
            rw [Queue.toList_pushAll, load_append]
            omega

/-- The search from `s` to its end. -/
def run (g : Grammar) (b : Bounds) (limit : Option Nat) (s : Search) : Search :=
  match h : s.step? g b limit with
  | none => s
  | some t =>
    have : load g b t.queue.toList < load g b s.queue.toList := load_step? h
    run g b limit t
termination_by load g b s.queue.toList

end Search

/-! ### Outcomes -/

/-- The outcome of an enumeration. -/
structure Enumeration where
  start : NonTerminal
  language : Language
  /-- The number of states taken off the queue. -/
  steps : Nat
  /-- The number of different forms met. -/
  forms : Nat
  /-- The number of states left in the queue. -/
  queued : Nat
  deriving DecidableEq

namespace Enumeration

/-- The outcome of a search that began with `A`. -/
def ofSearch (A : NonTerminal) (s : Search) : Enumeration :=
  ⟨A, .ofList s.found, s.steps, s.visited.size, s.queue.size⟩

/-- Whether the step limit cut the enumeration. -/
def isCut (e : Enumeration) : Bool := e.queued != 0

/-- The events of an enumeration: a warning if it was cut, and its figures. -/
def events (e : Enumeration) : List Event :=
  (if e.isCut then [.stopped e.start e.steps e.queued] else []) ++
    [.enumerated e.language.size e.start e.steps e.forms]

end Enumeration

/-- The strings that `g` derives from `start` within the bounds, as far as the step limit lets the
search go. -/
def Grammar.enumerate (g : Grammar) (b : Bounds) (limit : Option Nat) (start : NonTerminal) :
    Enumeration :=
  .ofSearch start ((Search.start start).run g b limit)

end GrammarComparison
