import Mathlib.Data.Finmap
import SExprLang.Environment.Lemmas

/-!
# Environments are finite maps

What an environment binds is a finite map from names to values (`Environment.toMap`), and the environment answers every
question as the map does (`Environment.observes_toMap`). Each operation on environments is one on their maps: a
definition inserts, a removal erases, and an extension puts the last binding of each of its names over what was bound
before.
-/

namespace SExprLang

/-- A finite map from names to values. -/
abbrev FiniteMap : Type := Finmap fun _ : String => Value

namespace FiniteMap

theorem lookup_insert_eq (map : FiniteMap) (name : String) (value : Value) (other : String) :
    Finmap.lookup other (map.insert name value) = if other = name then some value else map.lookup other := by
  split
  · rename_i h
    subst h
    exact Finmap.lookup_insert _
  · rename_i h
    exact Finmap.lookup_insert_of_ne _ h

theorem lookup_erase_eq (map : FiniteMap) (name other : String) :
    Finmap.lookup other (map.erase name) = if other = name then none else map.lookup other := by
  split
  · rename_i h
    subst h
    exact Finmap.lookup_erase _ _
  · rename_i h
    exact Finmap.lookup_erase_ne h

theorem lookup_union_eq (map map' : FiniteMap) (name : String) :
    Finmap.lookup name (map ∪ map') = (map.lookup name).or (map'.lookup name) := by
  by_cases h : name ∈ map
  · obtain ⟨value, hvalue⟩ := Finmap.mem_iff.1 h
    rw [Finmap.lookup_union_left h, hvalue, Option.some_or]
  · rw [Finmap.lookup_union_right h, Finmap.lookup_eq_none.2 h, Option.none_or]

/-! ## Maps of lists of bindings -/

theorem dlookup_toSigma (bindings : List (String × Value)) (name : String) :
    (bindings.map Prod.toSigma).dlookup name = bindings.lookup name := by
  induction bindings with
  | nil => rfl
  | cons binding rest ih =>
    rw [List.map_cons, Environment.lookup_binding]
    split
    · rename_i h
      subst h
      exact List.dlookup_cons_eq _ _ _
    · rename_i h
      rw [List.dlookup_cons_ne _ _ h, ih]

/-- Each name of a list with the last value that the list gives it. -/
def lastOf (bindings : List (String × Value)) : FiniteMap := (bindings.reverse.map Prod.toSigma).toFinmap

theorem lookup_lastOf (bindings : List (String × Value)) (name : String) :
    (lastOf bindings).lookup name = bindings.reverse.lookup name := by
  rw [lastOf, Finmap.dlookup_list_toFinmap, dlookup_toSigma]

theorem nodupKeys_toSigma {bindings : List (String × Value)} (distinct : (bindings.map Prod.fst).Nodup) :
    (bindings.map Prod.toSigma).NodupKeys := by
  rw [List.NodupKeys, List.keys, List.map_map, Prod.fst_comp_toSigma]
  exact distinct

/-- The map with just these bindings, in whatever order they come. -/
def ofDistinct (bindings : List (String × Value)) (distinct : (bindings.map Prod.fst).Nodup) : FiniteMap :=
  ⟨(bindings.map Prod.toSigma : List (Σ _ : String, Value)), nodupKeys_toSigma distinct⟩

/-- Where no name comes twice, the last value is the only one. -/
theorem ofDistinct_eq_lastOf (bindings : List (String × Value)) (distinct : (bindings.map Prod.fst).Nodup) :
    ofDistinct bindings distinct = lastOf bindings := by
  refine Finmap.ext_lookup fun name => ?_
  have hlookup : (ofDistinct bindings distinct).lookup name = (bindings.map Prod.toSigma).dlookup name := rfl
  have hreverse : (bindings.map Prod.toSigma).Perm (bindings.reverse.map Prod.toSigma) :=
    (List.reverse_perm bindings).symm.map Prod.toSigma
  rw [hlookup, List.perm_dlookup name (nodupKeys_toSigma distinct) hreverse, lastOf, Finmap.dlookup_list_toFinmap]

end FiniteMap

namespace Environment

variable (env : Environment)

/-- The names of the bindings are distinct. -/
theorem names_nodup : (env.bindings.map Prod.fst).Nodup := by
  refine List.pairwise_map.2 (env.ordered.imp fun {a b} hlt heq => ?_)
  exact String.lt_irrefl b.1 (heq ▸ hlt)

/-- The finite map of what the environment binds. -/
def toMap : FiniteMap := .ofDistinct env.bindings env.names_nodup

@[simp]
theorem lookup_toMap (name : String) : env.toMap.lookup name = env.get? name :=
  FiniteMap.dlookup_toSigma env.bindings name

/-! ## Operations -/

theorem toMap_empty : empty.toMap = ∅ := rfl

theorem toMap_define (name : String) (value : Value) : (env.define name value).toMap = env.toMap.insert name value := by
  refine Finmap.ext_lookup fun other => ?_
  rw [lookup_toMap, get?_define, FiniteMap.lookup_insert_eq, lookup_toMap]

theorem toMap_remove (name : String) : (env.remove name).toMap = env.toMap.erase name := by
  refine Finmap.ext_lookup fun other => ?_
  rw [lookup_toMap, get?_remove, FiniteMap.lookup_erase_eq, lookup_toMap]

/-- After an extension a name is bound to the last value that the extension gives it, if it gives one. -/
theorem get?_extend_eq (bindings : List (String × Value)) (name : String) :
    (env.extend bindings).get? name = (bindings.reverse.lookup name).or (env.get? name) := by
  induction bindings generalizing env with
  | nil => rfl
  | cons binding rest ih =>
    have hfirst : (env.define binding.1 binding.2).get? name = ([binding].lookup name).or (env.get? name) := by
      rw [get?_define, lookup_binding]
      split <;> rfl
    calc ((env.define binding.1 binding.2).extend rest).get? name
        = (rest.reverse.lookup name).or ((env.define binding.1 binding.2).get? name) := ih _
      _ = ((rest.reverse.lookup name).or ([binding].lookup name)).or (env.get? name) := by rw [hfirst, Option.or_assoc]
      _ = ((binding :: rest).reverse.lookup name).or (env.get? name) := by rw [List.reverse_cons, List.lookup_append]

theorem toMap_extend (bindings : List (String × Value)) :
    (env.extend bindings).toMap = FiniteMap.lastOf bindings ∪ env.toMap := by
  refine Finmap.ext_lookup fun name => ?_
  rw [lookup_toMap, get?_extend_eq, FiniteMap.lookup_union_eq, FiniteMap.lookup_lastOf, lookup_toMap]

theorem toMap_ofList (bindings : List (String × Value)) : (ofList bindings).toMap = FiniteMap.lastOf bindings := by
  rw [ofList, toMap_extend, toMap_empty, Finmap.union_empty]

/-! ## Questions -/

/-- The environment answers every question as the map does. -/
structure Observes (map : FiniteMap) : Prop where
  get? : ∀ name, env.get? name = map.lookup name
  contains : ∀ name, env.contains name = true ↔ name ∈ map
  size : env.size = map.keys.card
  isEmpty : env.isEmpty = true ↔ map = ∅
  /-- A walk through the bindings comes by each binding of the map once. -/
  bindings : (env.bindings.map Prod.toSigma : Multiset (Σ _ : String, Value)) = map.entries

theorem observes_toMap : env.Observes env.toMap where
  get? name := (env.lookup_toMap name).symm
  contains name := by
    rw [contains, ← lookup_toMap, Finmap.lookup_isSome]
  size := by
    have hkeys : env.toMap.keys.card = (env.bindings.map Prod.toSigma).keys.length := rfl
    rw [hkeys, List.keys, List.length_map, List.length_map, size]
  isEmpty := by
    have hentries : env.toMap.entries = (env.bindings.map Prod.toSigma : List (Σ _ : String, Value)) := rfl
    have hempty : (∅ : FiniteMap).entries = 0 := rfl
    rw [isEmpty, List.isEmpty_iff, ← Finmap.ext_iff', hentries, hempty, Multiset.coe_eq_zero, List.map_eq_nil_iff]
  bindings := rfl

end Environment

end SExprLang
