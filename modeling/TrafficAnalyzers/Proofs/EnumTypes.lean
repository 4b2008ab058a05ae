import Mathlib.Data.List.Infix
import TrafficAnalyzers.Proofs.Interchange.References
/-!
Identifiers of enum types. Main statement: the first registration of an enum type brings one
identifier, a later one none, and the identifier has the name that its type carries unless the module
is the global one or the name has a namespace already.
-/
namespace TrafficAnalyzers

namespace LocalHost

theorem hasNamespace_iff {cs : List Char} : hasNamespace cs = true ↔ [':', ':'] <:+: cs := by
  fun_induction hasNamespace cs with
  | case1 cs => simpa using (List.prefix_append [':', ':'] cs).isInfix
  | case2 c cs hstart ih =>
    rw [ih, List.infix_cons_iff, or_iff_right]
    rintro ⟨rest, hrest⟩
    simp only [List.cons_append, List.nil_append, List.cons.injEq] at hrest
    exact hstart rest hrest.1.symm hrest.2.symm
  | case3 => simp

/-- A name comes to have its module in front unless the module is the global one or the name has a
namespace. -/
theorem qualify_eq_iff {name module : String} : qualify name module = module ++ "::" ++ name ↔
    module ≠ globalModule ∧ ¬ [':', ':'] <:+: name.toList := by
  have hlonger : name ≠ module ++ "::" ++ name := fun h => by
    have hlength := congrArg String.length h
    simp only [String.length_append] at hlength
    have htwo : "::".length = 2 := rfl
    omega
  rw [← hasNamespace_iff, ← not_or, or_comm, qualify]
  by_cases hkept : hasNamespace name.toList = true ∨ module = globalModule
  · rw [if_pos (by simpa using hkept)]
    exact iff_of_false hlonger (not_not.mpr hkept)
  · rw [if_neg (by simpa using hkept)]
    exact iff_of_true rfl hkept

theorem identIndex?_eq_none_iff {h : LocalHost} {name : String} :
    h.identIndex? name = none ↔ ∀ i ∈ h.idents, i.name ≠ name := by
  rw [identIndex?, List.findIdx?_eq_none_iff]
  simp

end LocalHost

namespace Registry

variable {r r' : Registry LocalHost} {space id : String}

/-- Where an identifier has the name, nothing is installed. -/
theorem silent_registerEnumType_known (h : ∃ i ∈ r.host.idents, i.name = LocalHost.qualify id space)
    (labels : List (String × Int64)) : (registerEnumType space id labels r).silent = (.ok (), r) := by
  obtain ⟨i, hi, hname⟩ := h
  rw [silent_registerEnumType]
  cases hindex : r.host.identIndex? (LocalHost.qualify id space) with
  | some n => rfl
  | none => exact absurd hname (LocalHost.identIndex?_eq_none_iff.mp hindex i hi)

/-- Where no identifier has the name, that of the type is installed. -/
theorem silent_registerEnumType_fresh (h : ∀ i ∈ r.host.idents, i.name ≠ LocalHost.qualify id space)
    (labels : List (String × Int64)) : (registerEnumType space id labels r).silent =
      (.ok (), r.withIdents (r.host.idents ++ [enumIdent space id labels])) := by
  rw [silent_registerEnumType, LocalHost.identIndex?_eq_none_iff.mpr h]

/-- The name stays known as long as identifiers stay. -/
theorem known_of_registered {labels : List (String × Int64)}
    (h : IdentsWithin (registerEnumType space id labels r).state.host.idents r'.host.idents) :
    ∃ i ∈ r'.host.idents, i.name = LocalHost.qualify id space := by
  obtain ⟨i, hi, hname, -⟩ := holds_registerEnumType (r := r) space id labels
  obtain ⟨j, hj, hij⟩ := h.mem hi
  exact ⟨j, hj, hij.name.trans hname⟩

/-- What registering an enum type does. -/
structure InstallsEnumType (space id : String) (labels : List (String × Int64))
    (r : Registry LocalHost) : Prop where
  succeeds : (registerEnumType space id labels r).result = .ok ()
  known : (∃ i ∈ r.host.idents, i.name = LocalHost.qualify id space) →
    (registerEnumType space id labels r).state = r
  /-- The one new identifier is exported and has the labels in their order, each with the name of the
  type in front. -/
  fresh : (∀ i ∈ r.host.idents, i.name ≠ LocalHost.qualify id space) →
    (registerEnumType space id labels r).state = r.withIdents (r.host.idents ++
      [⟨LocalHost.qualify id space, true, some (.enum (space ++ "::" ++ id)
        (labels.map fun label => (id ++ "_" ++ label.1, label.2)))⟩])
  /-- A second registration changes nothing, whatever came between as long as it left the
  identifiers in their places. -/
  again : ∀ r' : Registry LocalHost,
    IdentsWithin (registerEnumType space id labels r).state.host.idents r'.host.idents →
    ∀ labels', (registerEnumType space id labels' r').silent = (.ok (), r')
  /-- When the identifier has the name that its type carries. -/
  named : LocalHost.qualify id space = space ++ "::" ++ id ↔
    space ≠ globalModule ∧ ¬ [':', ':'] <:+: id.toList

/-- An enum type is installed once, under its qualified name. -/
theorem enum_type_installed_once (space id : String) (labels : List (String × Int64))
    (r : Registry LocalHost) : InstallsEnumType space id labels r where
  succeeds := congrArg Prod.fst (silent_registerEnumType space id labels r)
  known h := state_of_silent (silent_registerEnumType_known h labels)
  fresh h := state_of_silent (silent_registerEnumType_fresh h labels)
  again _ h := silent_registerEnumType_known (known_of_registered h)
  named := LocalHost.qualify_eq_iff

/-- The identifier of a type in the global module does not carry the module, its type does. -/
theorem global_enum_type_named_apart :
    let r := Registry.new (LocalHost.new 40100 "" true) []
    (registerEnumType "GLOBAL" "Kind" [("A", 1)] r).state.host.idents =
      [⟨"Kind", true, some (.enum "GLOBAL::Kind" [("Kind_A", 1)])⟩] := by
  intro r
  have h := enum_type_installed_once "GLOBAL" "Kind" [("A", 1)] r
  rw [h.fresh nofun]
  decide +kernel

end Registry

end TrafficAnalyzers
