import VectorTable.Number.Binary

/-!
# VectorTable — maximal marginal relevance

A re-ranking of candidates that trades closeness to the query against closeness to what is
already chosen. Each step takes the candidate with the highest score, where a candidate's score
is its similarity to the query times `lambda`, less its greatest similarity to a chosen
candidate times `1 - lambda`.

* `cosineSimilarity` — the similarity of two vectors;
* `Relevance.select` — the candidates in the order of choice.
-/

namespace VectorTable

/-- The sum of some floats from left to right. The start is the zero that changes no summand. -/
def sumFloats (xs : List Double) : Double := xs.foldl Binary.add (Binary.zero true)

/-- The scalar product of two vectors. -/
def dotProduct (a b : List Double) : Double := sumFloats (List.zipWith Binary.mul a b)

/-- A vector made ready for comparison: its components as 64-bit floats, and its length. -/
structure Direction where
  components : List Double
  length : Double

def Direction.ofVector (v : List Single) : Direction :=
  let components := v.map Binary.widen
  ⟨components, (dotProduct components components).sqrt⟩

/-- The cosine of the angle between two directions; zero if one is empty or has length zero, or
if their dimensions differ. -/
def Direction.similarity (a b : Direction) : Double :=
  if a.components.length ≠ b.components.length ∨ a.components.isEmpty then .zero false
  else if a.length.eq (.zero false) || b.length.eq (.zero false) then .zero false
  else (dotProduct a.components b.components).div (a.length.mul b.length)

/-- The cosine of the angle between two vectors. -/
def cosineSimilarity (a b : List Single) : Double :=
  (Direction.ofVector a).similarity (.ofVector b)

namespace Relevance

/-- The greatest of some similarities, `nan` giving way to the others; zero if there are none. -/
def greatest : List Double → Double
  | [] => .zero false
  | x :: xs => xs.foldl Binary.max x

/-- The score of a candidate, from its similarity to the query and to the chosen ones. -/
def score (lambda similarity : Double) (chosen : List Double) : Double :=
  (lambda.mul similarity).sub (((Binary.ofInt 1).sub lambda).mul (greatest chosen))

/-- The first element with the highest score. Scores that are not above negative infinity never
win, so that without any other the first element is taken. -/
def best? (score : Nat → Double) : List Nat → Option Nat
  | [] => none
  | c :: rest =>
    -- The comparison is strict: the first of equal scores stays, and a `nan` never gets in.
    let (winner, _) := (c :: rest).foldl
      (fun (best : Nat × Double) i =>
        let s := score i
        if best.2.lt s then (i, s) else best)
      (c, Binary.infinite true)
    some winner

/-- Takes up to `steps` elements one after the other, each the best of those that remain, where
the score may depend on what is taken already. -/
def greedy (score : List Nat → Nat → Double) : Nat → List Nat → List Nat → List Nat
  | 0, chosen, _ => chosen
  | steps + 1, chosen, remaining =>
    match best? (score chosen) remaining with
    | none => chosen
    | some c => greedy score steps (chosen ++ [c]) (remaining.erase c)

/-- The positions of at most `k` candidates in the order of choice. The similarities between
candidates are computed once, and only for those that are chosen. -/
def select (query : List Single) (candidates : List (List Single)) (k : Nat) (lambda : Double) :
    List Nat :=
  let directions := (candidates.map Direction.ofVector).toArray
  let toQuery := directions.map (Direction.ofVector query).similarity
  let toOthers := directions.map fun d => Thunk.mk fun _ => directions.map d.similarity
  let between (s i : Nat) : Double := (toOthers[s]?.elim #[] Thunk.get).getD i .nan
  let scoreOf (chosen : List Nat) (i : Nat) : Double :=
    score lambda (toQuery.getD i .nan) (chosen.map (between · i))
  greedy scoreOf (min k candidates.length) [] (List.range candidates.length)

end Relevance

end VectorTable
