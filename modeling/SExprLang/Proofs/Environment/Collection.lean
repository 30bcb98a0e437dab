import SExprLang.Host.Session
import SExprLang.Proofs.Environment.FiniteMap
import SExprLang.Proofs.Evaluation.Creations

/-!
# Collections of environments

A host works on a growing collection of environments, each known by its number: it makes new ones, from nothing, from
bindings or as copies, and changes those that it has (`Collection.Step`). Whatever it does, the collection is one of
independent finite maps (`Collection.run_refines`). What a copy shares with its source ends at the copy, since a step
changes one environment at most (`Collection.getElem?_step`), and the steps of a session are such steps
(`Host.Session.step_eq_collection`). Evaluation looks names up, binds them and opens scopes, none of which can tell apart
two environments of one map, so it sees the map alone and not how an environment came about (`evaluate_of_observes`).
-/

namespace SExprLang

namespace Collection

/-- What can be done to a collection of environments. -/
inductive Step where
  /-- Adds an environment without bindings. -/
  | new
  | define (target : Nat) (name : String) (value : Value)
  | defineOperation (target : Nat) (name : String) (operation : Operation)
  | remove (target : Nat) (name : String)
  /-- Binds one name after the other. -/
  | extend (target : Nat) (bindings : List (String × Value))
  /-- Adds an environment with bindings that come one after the other. -/
  | collect (bindings : List (String × Value))
  /-- Adds an environment with the bindings of a map, which come in no particular order. -/
  | ofMap (bindings : List (String × Value)) (distinct : (bindings.map Prod.fst).Nodup)
  /-- Adds a copy. -/
  | copy (source : Nat)
  /-- Adds a copy with one more binding. -/
  | copyWith (source : Nat) (name : String) (value : Value)

/-- The number of the environment that a step changes. -/
def Step.target? : Step → Option Nat
  | define target _ _ | defineOperation target _ _ | remove target _ | extend target _ => some target
  | new | collect _ | ofMap _ _ | copy _ | copyWith _ _ _ => none

/-- Takes a step on environments. The answer is the value that a definition replaces or a removal takes away. -/
def step (environments : List Environment) : Step → Option Value × List Environment
  | .new => (none, environments ++ [.empty])
  | .define i name value => (environments[i]?.bind (·.get? name), environments.modify i (·.define name value))
  | .defineOperation i name operation =>
    (environments[i]?.bind (·.get? name), environments.modify i (·.define name (.operation operation)))
  | .remove i name => (environments[i]?.bind (·.get? name), environments.modify i (·.remove name))
  | .extend i bindings => (none, environments.modify i (·.extend bindings))
  | .collect bindings => (none, environments ++ [.ofList bindings])
  | .ofMap bindings _ => (none, environments ++ [.ofList bindings])
  | .copy i => (none, environments ++ environments[i]?.toList)
  | .copyWith i name value => (none, environments ++ (environments[i]?.map (·.define name value)).toList)

/-- Takes a step on finite maps: the last value that a name is given is the one that it has. -/
def stepMaps (maps : List FiniteMap) : Step → Option Value × List FiniteMap
  | .new => (none, maps ++ [∅])
  | .define i name value => (maps[i]?.bind (·.lookup name), maps.modify i (·.insert name value))
  | .defineOperation i name operation =>
    (maps[i]?.bind (·.lookup name), maps.modify i (·.insert name (.operation operation)))
  | .remove i name => (maps[i]?.bind (·.lookup name), maps.modify i (·.erase name))
  | .extend i bindings => (none, maps.modify i (FiniteMap.lastOf bindings ∪ ·))
  | .collect bindings => (none, maps ++ [FiniteMap.lastOf bindings])
  | .ofMap bindings distinct => (none, maps ++ [FiniteMap.ofDistinct bindings distinct])
  | .copy i => (none, maps ++ maps[i]?.toList)
  | .copyWith i name value => (none, maps ++ (maps[i]?.map (·.insert name value)).toList)

/-- Takes steps one after the other. -/
def run {α : Type} (step : List α → Step → Option Value × List α) (all : List α) :
    List Step → List (Option Value) × List α
  | [] => ([], all)
  | first :: rest =>
    let (answer, all) := step all first
    let (answers, all) := run step all rest
    (answer :: answers, all)

/-! ## Environments and their maps -/

theorem modify_map {α β : Type} {view : α → β} {f : α → α} {g : β → β} (h : ∀ a, g (view a) = view (f a)) (xs : List α)
    (i : Nat) : (xs.map view).modify i g = (xs.modify i f).map view := by
  refine List.ext_getElem? fun j => ?_
  simp only [List.getElem?_modify, List.getElem?_map]
  cases xs[j]? with
  | none => rfl
  | some a =>
    simp only [Option.map_some, Option.map_eq_map]
    split
    · rw [h]
    · rfl

theorem bind_lookup_toMap (environments : List Environment) (i : Nat) (name : String) :
    (environments.map Environment.toMap)[i]?.bind (Finmap.lookup name) = environments[i]?.bind (·.get? name) := by
  rw [List.getElem?_map]
  cases environments[i]? with
  | none => rfl
  | some env => exact env.lookup_toMap name

/-- A step on environments is the step on their maps. -/
theorem stepMaps_toMap (environments : List Environment) (s : Step) :
    stepMaps (environments.map Environment.toMap) s =
      ((step environments s).1, (step environments s).2.map Environment.toMap) := by
  cases s with
  | new => simp [stepMaps, step, Environment.toMap_empty]
  | define i name value =>
    simp only [stepMaps, step, bind_lookup_toMap]
    rw [modify_map fun env => (env.toMap_define name value).symm]
  | defineOperation i name operation =>
    simp only [stepMaps, step, bind_lookup_toMap]
    rw [modify_map fun env => (env.toMap_define name (.operation operation)).symm]
  | remove i name =>
    simp only [stepMaps, step, bind_lookup_toMap]
    rw [modify_map fun env => (env.toMap_remove name).symm]
  | extend i bindings =>
    simp only [stepMaps, step]
    rw [modify_map fun env => (env.toMap_extend bindings).symm]
  | collect bindings => simp [stepMaps, step, Environment.toMap_ofList]
  | ofMap bindings distinct => simp [stepMaps, step, Environment.toMap_ofList, FiniteMap.ofDistinct_eq_lastOf]
  | copy i =>
    simp only [stepMaps, step, List.getElem?_map, List.map_append]
    cases environments[i]? <;> rfl
  | copyWith i name value =>
    simp only [stepMaps, step, List.getElem?_map, List.map_append]
    cases environments[i]? with
    | none => rfl
    | some env => simp [Environment.toMap_define]

theorem run_toMap (environments : List Environment) (steps : List Step) :
    run stepMaps (environments.map Environment.toMap) steps =
      ((run step environments steps).1, (run step environments steps).2.map Environment.toMap) := by
  induction steps generalizing environments with
  | nil => rfl
  | cons s rest ih => simp only [run, stepMaps_toMap, ih]

/-- **Whatever is done to a collection of environments, it stays a collection of independent finite maps.** -/
theorem run_refines (steps : List Step) :
    (run step [] steps).1 = (run stepMaps [] steps).1 ∧
      List.Forall₂ Environment.Observes (run step [] steps).2 (run stepMaps [] steps).2 := by
  have hrun := run_toMap [] steps
  rw [List.map_nil] at hrun
  rw [hrun]
  exact ⟨rfl, List.forall₂_map_right_iff.2 (List.forall₂_same.2 fun env _ => env.observes_toMap)⟩

/-- A step changes no other environment than its target. -/
theorem getElem?_step {environments : List Environment} {s : Step} {i : Nat} (hi : i < environments.length)
    (htarget : s.target? ≠ some i) : (step environments s).2[i]? = environments[i]? := by
  have hadded (added : List Environment) : (environments ++ added)[i]? = environments[i]? :=
    List.getElem?_append_left hi
  have hmodified (j : Nat) (f : Environment → Environment) (hj : some j ≠ some i) :
      (environments.modify j f)[i]? = environments[i]? := by
    rw [List.getElem?_modify]
    have hne : j ≠ i := fun h => hj (congrArg some h)
    simp [hne]
  cases s with
  | new | collect _ | ofMap _ _ | copy _ | copyWith _ _ _ => exact hadded _
  | define _ _ _ | defineOperation _ _ _ | remove _ _ | extend _ _ => exact hmodified _ _ htarget

end Collection

/-! ## Sessions -/

namespace Host.Session

/-- What a request to a session is to its environments, if it changes or adds one without a run. -/
def collectionStep? (s : Session) : Host.Step → Option Collection.Step
  | .define name literal => some (.define s.current name (literal.resolve s.env s.serial).1)
  | .remove name => some (.remove s.current name)
  | .extend bindings => some (.extend s.current (Literal.resolveBindings s.env s.serial bindings).1)
  | .copy => some (.copy s.current)
  | .copyWith name literal => some (.copyWith s.current name (literal.resolve s.env s.serial).1)
  | _ => none

theorem getElem?_current {s : Session} (h : s.current < s.environments.size) :
    s.environments.toList[s.current]? = some s.env := by
  rw [Array.getElem?_toList, env, Array.getD_eq_getD_getElem?, Array.getElem?_eq_getElem h]
  rfl

theorem toList_setEnv {s : Session} (h : s.current < s.environments.size) (f : Environment → Environment) :
    (s.setEnv (f s.env)).environments.toList = s.environments.toList.modify s.current f := by
  refine List.ext_getElem? fun j => ?_
  rw [setEnv, Array.toList_setIfInBounds, List.getElem?_set, List.getElem?_modify]
  split
  · rename_i hj
    subst hj
    rw [getElem?_current h, Array.length_toList, if_pos h]
    simp
  · simp

/-- A session works on its environments by the steps of a collection, and answers a definition or a removal with what it
replaced. -/
theorem step_eq_collection {s : Session} {request : Host.Step} {what : Collection.Step}
    (h : s.current < s.environments.size) (hwhat : s.collectionStep? request = some what) :
    (s.step request).2.environments.toList = (Collection.step s.environments.toList what).2 ∧
      ∀ previous, (s.step request).1 = .previous previous →
        previous = (Collection.step s.environments.toList what).1 := by
  have hprevious (name : String) : s.env.get? name = s.environments.toList[s.current]?.bind (·.get? name) := by
    rw [getElem?_current h, Option.bind_some]
  cases request with
  | define name literal =>
    cases hwhat
    refine ⟨toList_setEnv h (·.define name _), ?_⟩
    rintro _ ⟨⟩
    exact hprevious name
  | remove name =>
    cases hwhat
    refine ⟨toList_setEnv h (·.remove name), ?_⟩
    rintro _ ⟨⟩
    exact hprevious name
  | extend bindings =>
    cases hwhat
    exact ⟨toList_setEnv h (·.extend _), nofun⟩
  | copy =>
    cases hwhat
    refine ⟨?_, nofun⟩
    rw [Collection.step, getElem?_current h]
    exact Array.toList_push
  | copyWith name literal =>
    cases hwhat
    refine ⟨?_, nofun⟩
    rw [Collection.step, getElem?_current h]
    exact Array.toList_push
  | _ => cases hwhat

end Host.Session

/-! ## Evaluation -/

/-- Environments with one map end alike, whichever identities the runs give out. -/
theorem evaluate_of_observes (depth : Nat) (e : Expression) {machine machine' : Machine} {map : FiniteMap}
    (hmap : machine.env.Observes map) (hmap' : machine'.env.Observes map)
    (hover : machine.env.Over Vocabulary.standard.Offers) :
    let a : Identity := ⟨machine.region, machine.serial⟩
    let b : Identity := ⟨machine'.region, machine'.serial⟩
    Eval.Ends (fun m n => Environment.Matched a b m.env n.env) Eq (Value.Matched a b)
      ((evaluate depth e).start machine) ((evaluate depth e).start machine') :=
  evaluate_matched depth e machine machine'
    (Environment.matched_of_get? fun name => (hmap.get? name).trans (hmap'.get? name).symm) (hover.isPlain (by decide))

/-- **Environments are independent finite maps, and evaluation sees nothing else.** After all steps every environment
answers as the map that the same steps make, and every definition and removal has answered with what was bound before; a
step changes no environment but its target; a session works by such steps; and environments with one map, however they
came about, have the same outcome and leave environments with the same map, up to the creations of the two runs. -/
theorem environments_refine_maps :
    (∀ steps : List Collection.Step,
      (Collection.run Collection.step [] steps).1 = (Collection.run Collection.stepMaps [] steps).1 ∧
        List.Forall₂ Environment.Observes (Collection.run Collection.step [] steps).2
          (Collection.run Collection.stepMaps [] steps).2) ∧
    (∀ (environments : List Environment) (s : Collection.Step) (i : Nat), i < environments.length →
      s.target? ≠ some i → (Collection.step environments s).2[i]? = environments[i]?) ∧
    (∀ (session : Host.Session) (request : Host.Step) (what : Collection.Step),
      session.current < session.environments.size → session.collectionStep? request = some what →
      (session.step request).2.environments.toList = (Collection.step session.environments.toList what).2 ∧
        ∀ previous, (session.step request).1 = .previous previous →
          previous = (Collection.step session.environments.toList what).1) ∧
    (∀ (depth : Nat) (e : Expression) (machine machine' : Machine) (map : FiniteMap), machine.env.Observes map →
      machine'.env.Observes map → machine.env.Over Vocabulary.standard.Offers →
      let a : Identity := ⟨machine.region, machine.serial⟩
      let b : Identity := ⟨machine'.region, machine'.serial⟩
      Eval.Ends (fun m n => Environment.Matched a b m.env n.env) Eq (Value.Matched a b)
        ((evaluate depth e).start machine) ((evaluate depth e).start machine')) :=
  ⟨Collection.run_refines, fun _ _ _ => Collection.getElem?_step, fun _ _ _ => Host.Session.step_eq_collection,
    fun depth e _ _ _ => evaluate_of_observes depth e⟩

/-- An environment collected from bindings of which the last one of a name counts, and a copy that is changed on both
sides; and two ways to the same map, in which a function is defined under different identities. -/
theorem environments_refine_maps_of_copies :
    let p : Position := ⟨1, 1⟩
    let steps : List Collection.Step := [.collect [("a", .nil), ("b", .nil), ("a", .bool true)],
      .copyWith 0 "c" .nil, .define 0 "a" (.bool false), .remove 1 "a"]
    let e : Expression := .list [.symbol "def" p, .string "F" p, .string "x" p, .symbol "a" p] p
    let machine : Machine := Machine.mk (Vocabulary.standard.environment.extend [("a", .nil), ("a", .bool true)]) 0 9 []
    let machine' : Machine := Machine.mk (((Vocabulary.standard.environment.define "b" .nil).define "a"
      (.bool true)).remove "b") 1 20 []
    (Collection.run Collection.stepMaps [] steps).1 = [none, none, some (.bool true), some (.bool true)] ∧
      (Collection.step (Collection.run Collection.step [] steps).2 (.remove 0 "b")).2[1]? =
        some (.ofList [("b", .nil), ("c", .nil)]) ∧
      machine.env.Observes machine.env.toMap ∧ machine'.env.Observes machine.env.toMap ∧
      Eval.Ends (fun m n => Environment.Matched ⟨0, 9⟩ ⟨1, 20⟩ m.env n.env) Eq (Value.Matched ⟨0, 9⟩ ⟨1, 20⟩)
        ((evaluate 2 e).start machine) ((evaluate 2 e).start machine') := by
  intro p steps e machine machine'
  obtain ⟨hrun, hother, _, hevaluate⟩ := environments_refine_maps
  have hanswers : (Collection.run Collection.step [] steps).1 = [none, none, some (.bool true), some (.bool true)] := by
    decide +kernel
  have hsecond : (Collection.run Collection.step [] steps).2[1]? = some (.ofList [("b", .nil), ("c", .nil)]) := by
    decide +kernel
  have henv : machine'.env = machine.env := by decide +kernel
  have hfirst : (Vocabulary.standard.environment.define "a" .nil).Over Vocabulary.standard.Offers :=
    (Vocabulary.environment_over .standard).define "a" nofun
  have hover : machine.env.Over Vocabulary.standard.Offers := hfirst.define "a" nofun
  refine ⟨(hrun steps).1 ▸ hanswers, ?_, machine.env.observes_toMap, henv ▸ machine'.env.observes_toMap, ?_⟩
  · rw [hother _ (.remove 0 "b") 1 (by decide +kernel) (by decide)]
    exact hsecond
  · exact hevaluate 2 e machine machine' _ machine.env.observes_toMap (henv ▸ machine'.env.observes_toMap) hover

end SExprLang
