import Countersign.Proofs.Json.Printed

set_option autoImplicit false

/-!
# Members of an object

An object keeps its members in the order of their names, in whatever order they were given.
Members given in order are kept as they are. Of members with one name the last counts, and the
others leave no trace.
-/

namespace Countersign.Json

/-! ### Members in order -/

/-- The names ascend, so that none is there twice. -/
def ascends : Json → Bool
  | .obj members => decide ((members.map Prod.fst).Pairwise (· < ·))
  | _ => true

def orderly (value : Json) : Bool := value.all ascends

theorem putMember_of_above {name : String} {value : Json} {members : List (String × Json)}
    (above : ∀ member ∈ members, member.1 < name) :
    putMember name value members = members ++ [(name, value)] := by
  induction members with
  | nil => rfl
  | cons member members ih =>
    have less : member.1 < name := above member (by simp)
    have notBelow : ¬name < member.1 := String.lt_asymm less
    have differs : name ≠ member.1 := by
      rintro rfl
      exact String.lt_irrefl _ less
    have appended := ih fun other among => above other (by simp [among])
    rw [putMember, if_neg notBelow, if_neg differs, appended]
    rfl

/-- Members in order make an object as they are. -/
theorem ofMembers_of_ascending {members : List (String × Json)}
    (ascending : (members.map Prod.fst).Pairwise (· < ·)) : ofMembers members = .obj members := by
  suffices put : ∀ sofar : List (String × Json),
      ((sofar ++ members).map Prod.fst).Pairwise (· < ·) →
        members.foldl (fun sofar member => putMember member.1 member.2 sofar) sofar =
          sofar ++ members by
    rw [ofMembers, put [] ascending]
    rfl
  clear ascending
  induction members with
  | nil => simp
  | cons member members ih =>
    intro sofar ascending
    have above : ∀ earlier ∈ sofar, earlier.1 < member.1 := by
      rw [List.map_append, List.pairwise_append] at ascending
      exact fun earlier among => ascending.2.2 _ (List.mem_map_of_mem among) _ (by simp)
    rw [List.foldl_cons, putMember_of_above above, ih, List.append_assoc]
    · rfl
    · rw [List.append_assoc]
      exact ascending

theorem mem_names_putMember {name other : String} {value : Json} {members : List (String × Json)} :
    other ∈ (putMember name value members).map Prod.fst ↔
      other = name ∨ other ∈ members.map Prod.fst := by
  induction members with
  | nil => simp [putMember]
  | cons member members ih =>
    unfold putMember
    split
    · simp
    · split
      · next same => simp [same]
      · rw [List.map_cons, List.mem_cons, ih, List.map_cons, List.mem_cons]
        exact or_left_comm

/-- An object has no other names than its members were given under. -/
theorem mem_names_foldl_putMember {name : String} (members sofar : List (String × Json)) :
    name ∈ (members.foldl (fun sofar member => putMember member.1 member.2 sofar)
        sofar).map Prod.fst ↔
      name ∈ sofar.map Prod.fst ∨ name ∈ members.map Prod.fst := by
  induction members generalizing sofar with
  | nil => simp
  | cons member members ih =>
    rw [List.foldl_cons, ih, mem_names_putMember, List.map_cons, List.mem_cons, or_assoc,
      or_left_comm]

theorem mem_putMember {name : String} {value : Json} {member : String × Json}
    {members : List (String × Json)} (among : member ∈ putMember name value members) :
    member = (name, value) ∨ member ∈ members := by
  induction members with
  | nil => exact .inl (List.mem_singleton.mp among)
  | cons first members ih =>
    unfold putMember at among
    split at among
    · exact List.mem_cons.mp among
    · split at among
      · rcases List.mem_cons.mp among with same | later
        · exact .inl same
        · exact .inr (List.mem_cons_of_mem _ later)
      · rcases List.mem_cons.mp among with rfl | later
        · exact .inr List.mem_cons_self
        · exact (ih later).imp_right (List.mem_cons_of_mem _)

/-- An object has no other members than it was given. -/
theorem mem_foldl_putMember {member : String × Json} (members sofar : List (String × Json))
    (among : member ∈ members.foldl (fun sofar member => putMember member.1 member.2 sofar) sofar) :
    member ∈ sofar ∨ member ∈ members := by
  induction members generalizing sofar with
  | nil => exact .inl among
  | cons first members ih =>
    rcases ih _ among with early | later
    · rcases mem_putMember early with rfl | before
      · exact .inr List.mem_cons_self
      · exact .inl before
    · exact .inr (List.mem_cons_of_mem _ later)

/-! ### The last of a name -/

def last? (name : String) (members : List (String × Json)) : Option Json :=
  members.reverse.lookup name

theorem lookup_cons_if (name other : String) (value : Json) (rest : List (String × Json)) :
    ((other, value) :: rest).lookup name = if name = other then some value else rest.lookup name := by
  rw [List.lookup_cons]
  by_cases same : name = other
  · rw [if_pos same, beq_iff_eq.mpr same]
  · rw [if_neg same, beq_eq_false_iff_ne.mpr same]

theorem lookup_putMember (name other : String) (value : Json) (members : List (String × Json)) :
    (putMember other value members).lookup name =
      if name = other then some value else members.lookup name := by
  induction members with
  | nil => rw [putMember, lookup_cons_if]
  | cons first members ih =>
    obtain ⟨present, old⟩ := first
    rw [putMember]
    split
    · rw [lookup_cons_if]
    · split
      · next same =>
        rw [lookup_cons_if, lookup_cons_if, same]
        split <;> rfl
      · next differs =>
        rw [lookup_cons_if, ih, lookup_cons_if]
        split
        · next found => rw [if_neg (found ▸ Ne.symm differs)]
        · rfl

/-- An object has the last value that was given under a name. -/
theorem lookup_foldl_putMember (name : String) (members : List (String × Json)) :
    (members.foldl (fun sofar member => putMember member.1 member.2 sofar) []).lookup name =
      last? name members := by
  rw [last?, ← List.foldr_reverse]
  induction members.reverse with
  | nil => rfl
  | cons member members ih =>
    rw [List.foldr_cons, lookup_putMember, ih, lookup_cons_if]

theorem lookup_of_agreeing {name : String} {value : Json} {members : List (String × Json)}
    (among : (name, value) ∈ members) (agree : ∀ member ∈ members, member.1 = name → member.2 = value) :
    members.lookup name = some value := by
  induction members with
  | nil => cases among
  | cons member members ih =>
    obtain ⟨other, old⟩ := member
    rw [List.forall_mem_cons] at agree
    rw [lookup_cons_if]
    split
    · next same => exact congrArg some (agree.1 same.symm)
    · next differs =>
      rcases List.mem_cons.mp among with same | later
      · exact absurd (congrArg Prod.fst same) differs
      · exact ih later agree.2

/-- The last of a name does not depend on the order, if all of that name agree. -/
theorem last?_of_agreeing {name : String} {value : Json} {members : List (String × Json)}
    (among : (name, value) ∈ members) (agree : ∀ member ∈ members, member.1 = name → member.2 = value) :
    last? name members = some value :=
  lookup_of_agreeing (List.mem_reverse.mpr among)
    fun member found => agree member (List.mem_reverse.mp found)

end Countersign.Json
