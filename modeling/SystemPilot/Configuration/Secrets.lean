import Mathlib.Tactic
import SystemPilot.Configuration.Places

/-!
# Moving the legacy secrets

The four places where a document may hold a secret, and what moving the secrets
of a list of places does to a document: one lemma for a place, one for the list.
-/

set_option autoImplicit false

namespace SystemPilot.Configuration

open SystemPilot.Text
open SystemPilot.Json
open SystemPilot.Library.CrashFiles

/-- A legacy secret: the object it stands in, its field, the field that takes
its reference, and its file. -/
structure Place where
  container : Option String
  oldKey : String
  referenceKey : String
  filename : String
  deriving DecidableEq, Repr

def legacyPlaces : List Place := [
  ⟨none, "gemini_api_key", "gemini_credential", "gemini-api-key"⟩,
  ⟨none, "syspilot_api_key", "syspilot_credential", "syspilot-api-key"⟩,
  ⟨some "distributed_telemetry", "bearer_token", "bearer_credential", "telemetry-token"⟩,
  ⟨some "fleet", "credential", "credential_ref", "fleet-token"⟩]

/-- The document itself, or an object it holds. -/
def fieldsAt (container : Option String) (object : Fields) : Option Fields :=
  match container with
  | none => some object
  | some key =>
      match Fields.get object key with
      | some (.object inner) => some inner
      | _ => none

def lookup (container : Option String) (key : String) (object : Fields) : Option Value :=
  (fieldsAt container object).bind fun fields => Fields.get fields key

@[simp] theorem lookup_none (key : String) (object : Fields) :
    lookup none key object = Fields.get object key := rfl

def migrateAt (directory : String) (object : Fields) (place : Place) : Plan ConfigError Fields :=
  match place.container with
  | none => migrateSecret object place.oldKey place.referenceKey directory place.filename
  | some key => migrateNested object key place.oldKey place.referenceKey directory place.filename

def migrateAll (directory : String) : List Place → Fields → Plan ConfigError Fields
  | [], object => pure object
  | place :: rest, object => do
      let object ← migrateAt directory object place
      migrateAll directory rest object

/-! ## One object -/

/-- The three ways a secret is moved. -/
inductive Moved (place : Place) (directory : String) (object : Fields) :
    Fields → List (Write ConfigError) → Prop where
  | absent (missing : Fields.get object place.oldKey = none) : Moved place directory object object []
  | empty (found : Fields.get object place.oldKey = some (.string "")) :
      Moved place directory object
        (Fields.insert place.referenceKey CredentialRef.none.toValue
          (Fields.remove object place.oldKey)) []
  | stored (secret : String) (found : Fields.get object place.oldKey = some (.string secret))
      (filled : isBlank secret = false) :
      Moved place directory object
        (Fields.insert place.referenceKey
          (CredentialRef.file (joinPath directory place.filename)).toValue
          (Fields.remove object place.oldKey))
        [secretWrite directory place.filename secret]

/-- The secret can be moved: it is a string, and empty or not blank. -/
def Movable (value : Value) : Prop :=
  ∃ secret, value = .string secret ∧ (secret = "" ∨ isBlank secret = false)

variable {place : Place} {directory : String} {object after : Fields}

theorem migrateSecret_ok {writes : List (Write ConfigError)}
    (named : validateName place.filename = .ok ())
    (moved : migrateSecret object place.oldKey place.referenceKey directory place.filename =
      ⟨writes, .ok after⟩) :
    Moved place directory object after writes := by
  unfold migrateSecret at moved
  split at moved
  · rename_i missing
    cases moved
    exact Moved.absent missing
  · rename_i value found
    dsimp only at moved
    split at moved
    · cases moved
    · rename_i secret text
      have string : value = .string secret := by
        cases value <;> simp_all [Value.asString]
      subst string
      split at moved
      · rename_i empty
        subst empty
        cases moved
        exact Moved.empty found
      · cases blank : isBlank secret with
        | true =>
            rw [storeOwnerSecret_blank named blank] at moved
            cases moved
        | false =>
            rw [storeOwnerSecret_eq named blank] at moved
            cases moved
            exact Moved.stored secret found blank

theorem migrateSecret_ok_iff (directory : String) (named : validateName place.filename = .ok ()) :
    (∃ after, (migrateSecret object place.oldKey place.referenceKey directory
      place.filename).result = .ok after) ↔
      ∀ value, Fields.get object place.oldKey = some value → Movable value := by
  unfold migrateSecret
  split
  · rename_i missing
    simp [missing]
  · rename_i value found
    rw [found]
    dsimp only
    constructor
    · rintro ⟨after, ok⟩ other same
      cases same
      split at ok
      · cases ok
      · rename_i secret text
        refine ⟨secret, by cases value <;> simp_all [Value.asString], ?_⟩
        split at ok
        · rename_i empty
          exact Or.inl empty
        · cases blank : isBlank secret with
          | true =>
              rw [storeOwnerSecret_blank named blank] at ok
              cases ok
          | false => exact Or.inr rfl
    · intro movable
      obtain ⟨secret, rfl, shape⟩ := movable value rfl
      simp only [Value.asString]
      split
      · exact ⟨_, rfl⟩
      · rename_i filled
        rw [storeOwnerSecret_eq named (shape.resolve_left filled)]
        exact ⟨_, rfl⟩

/-! ## One place -/

/-- The fields a place may change: its own two, and the object they stand in. -/
def Place.Touches (place : Place) (container : Option String) (key : String) : Prop :=
  (container = place.container ∧ (key = place.oldKey ∨ key = place.referenceKey)) ∨
    (container = none ∧ place.container = some key) ∨
    (place.container = none ∧
      (container = some place.oldKey ∨ container = some place.referenceKey))

instance (place : Place) (container : Option String) (key : String) :
    Decidable (place.Touches container key) :=
  inferInstanceAs (Decidable (_ ∨ _ ∨ _))

/-- What the reference field of a place becomes. -/
def referenceAfter (directory : String) (object : Fields) (place : Place) : Option Value :=
  match lookup place.container place.oldKey object with
  | none => lookup place.container place.referenceKey object
  | some value =>
      if value = .string "" then some CredentialRef.none.toValue
      else some (CredentialRef.file (joinPath directory place.filename)).toValue

/-- A place after its secret was moved. -/
structure Settled (directory : String) (object after : Fields) (writes : List (Write ConfigError))
    (place : Place) : Prop where
  old : lookup place.container place.oldKey after = none
  reference : lookup place.container place.referenceKey after = referenceAfter directory object place
  movable : ∀ value, lookup place.container place.oldKey object = some value → Movable value
  stored : ∀ secret, lookup place.container place.oldKey object = some (.string secret) →
    secret ≠ "" → secretWrite directory place.filename secret ∈ writes
  objectKept : ∀ key, place.container = some key →
    ((fieldsAt (some key) after).isSome = (fieldsAt (some key) object).isSome) ∧
    (fieldsAt (some key) object = none → Fields.get after key = Fields.get object key)

namespace Moved

variable {writes : List (Write ConfigError)}

theorem old_absent (moved : Moved place directory object after writes)
    (distinct : place.referenceKey ≠ place.oldKey) : Fields.get after place.oldKey = none := by
  cases moved with
  | absent missing => exact missing
  | empty found => rw [Fields.get_insert_of_ne _ _ distinct, Fields.get_remove_self]
  | stored secret found filled => rw [Fields.get_insert_of_ne _ _ distinct, Fields.get_remove_self]

theorem get_other (moved : Moved place directory object after writes) {key : String}
    (old : key ≠ place.oldKey) (reference : key ≠ place.referenceKey) :
    Fields.get after key = Fields.get object key := by
  cases moved with
  | absent missing => rfl
  | empty found =>
      rw [Fields.get_insert_of_ne _ _ reference.symm, Fields.get_remove_of_ne _ old.symm]
  | stored secret found filled =>
      rw [Fields.get_insert_of_ne _ _ reference.symm, Fields.get_remove_of_ne _ old.symm]

theorem movable (moved : Moved place directory object after writes) {value : Value}
    (held : Fields.get object place.oldKey = some value) : Movable value := by
  cases moved with
  | absent missing =>
      rw [missing] at held
      cases held
  | empty found =>
      rw [found] at held
      cases held
      exact ⟨"", rfl, Or.inl rfl⟩
  | stored secret found filled =>
      rw [found] at held
      cases held
      exact ⟨secret, rfl, Or.inr filled⟩

theorem stored_mem (moved : Moved place directory object after writes) {secret : String}
    (held : Fields.get object place.oldKey = some (.string secret)) (filled : secret ≠ "") :
    secretWrite directory place.filename secret ∈ writes := by
  cases moved with
  | absent missing =>
      rw [missing] at held
      cases held
  | empty found =>
      rw [found] at held
      cases held
      exact absurd rfl filled
  | stored other found filled =>
      rw [found] at held
      cases held
      exact List.mem_singleton_self _

theorem isBlank_empty : isBlank "" = true := by decide

theorem reference_value (moved : Moved place directory object after writes) :
    Fields.get after place.referenceKey =
      match Fields.get object place.oldKey with
      | none => Fields.get object place.referenceKey
      | some value =>
          if value = .string "" then some CredentialRef.none.toValue
          else some (CredentialRef.file (joinPath directory place.filename)).toValue := by
  cases moved with
  | absent missing => rw [missing]
  | empty found => rw [found, Fields.get_insert_self]; rfl
  | stored secret found filled =>
      have nonempty : Value.string secret ≠ .string "" := by
        rintro ⟨⟩
        rw [isBlank_empty] at filled
        cases filled
      rw [found, Fields.get_insert_self]
      dsimp only
      rw [if_neg nonempty]

theorem targets (moved : Moved place directory object after writes) :
    (writes.map Write.target).Sublist [secretTarget directory place.filename] := by
  cases moved with
  | absent missing => exact List.nil_sublist _
  | empty found => exact List.nil_sublist _
  | stored secret found filled => exact List.Sublist.refl _

theorem canonical {depth : Nat} (moved : Moved place directory object after writes)
    (held : (Value.object object).canonical (depth + 2) = true) :
    (Value.object after).canonical (depth + 2) = true := by
  cases moved with
  | absent missing => exact held
  | empty found =>
      exact canonical_insert (canonical_remove held _) _ _ (CredentialRef.canonical_toValue depth _)
  | stored secret found filled =>
      exact canonical_insert (canonical_remove held _) _ _ (CredentialRef.canonical_toValue depth _)

end Moved

/-- Moving the secret of a place moves it in the object it stands in. -/
theorem migrateAt_ok {writes : List (Write ConfigError)}
    (named : validateName place.filename = .ok ())
    (moved : migrateAt directory object place = ⟨writes, .ok after⟩) :
    (fieldsAt place.container object = none ∧ after = object ∧ writes = []) ∨
      ∃ inner inner', fieldsAt place.container object = some inner ∧
        Moved place directory inner inner' writes ∧
        match place.container with
        | none => after = inner'
        | some key => after = Fields.insert key (.object inner') object := by
  unfold migrateAt at moved
  cases container : place.container with
  | none =>
      rw [container] at moved
      exact Or.inr ⟨object, after, rfl, migrateSecret_ok named moved, rfl⟩
  | some key =>
      rw [container] at moved
      dsimp only at moved
      unfold migrateNested at moved
      split at moved
      · rename_i inner found
        obtain ⟨inner', first, second, written⟩ := Plan.bind_result_ok (congrArg Plan.result moved)
        refine Or.inr ⟨inner, inner', by simp [fieldsAt, found], ?_, ?_⟩
        · apply migrateSecret_ok named
          rw [moved] at written
          simp only [Plan.pure_writes, List.append_nil] at written
          rw [written, ← first]
        · cases second
          rfl
      · rename_i other
        cases moved
        refine Or.inl ⟨?_, rfl, rfl⟩
        unfold fieldsAt
        dsimp only
        split
        · rename_i inner found
          exact absurd found (other inner)
        · rfl

theorem fieldsAt_some {key : String} {inner : Fields} (found : fieldsAt (some key) object = some inner) :
    Fields.get object key = some (.object inner) := by
  unfold fieldsAt at found
  dsimp only at found
  split at found
  · rename_i fields held
    cases found
    exact held
  · cases found

theorem fieldsAt_congr {other : Fields} {key : String}
    (same : Fields.get other key = Fields.get object key) :
    fieldsAt (some key) other = fieldsAt (some key) object := by
  simp only [fieldsAt, same]

theorem fieldsAt_insert_self (key : String) (inner : Fields) :
    fieldsAt (some key) (Fields.insert key (.object inner) object) = some inner := by
  simp [fieldsAt]

/-- What no field of the place names stays as it was. -/
theorem migrateAt_frame {writes : List (Write ConfigError)}
    (named : validateName place.filename = .ok ())
    (moved : migrateAt directory object place = ⟨writes, .ok after⟩)
    {container : Option String} {key : String} (untouched : ¬ place.Touches container key) :
    lookup container key after = lookup container key object := by
  simp only [Place.Touches, not_or, not_and] at untouched
  obtain ⟨own, holder, above⟩ := untouched
  rcases migrateAt_ok named moved with ⟨missing, rfl, rfl⟩ | ⟨inner, inner', found, within, shape⟩
  · rfl
  · cases holds : place.container with
    | none =>
        rw [holds] at found shape
        cases found
        subst shape
        cases container with
        | none =>
            obtain ⟨old, reference⟩ := own holds.symm
            exact within.get_other old reference
        | some name =>
            obtain ⟨old, reference⟩ := above holds
            rw [lookup, lookup, fieldsAt_congr (within.get_other (by simpa using old)
              (by simpa using reference))]
    | some name =>
        rw [holds] at found shape holder
        subst shape
        cases container with
        | none =>
            have distinct : name ≠ key := by simpa using holder rfl
            rw [lookup_none, lookup_none, Fields.get_insert_of_ne _ _ distinct]
        | some other =>
            by_cases same : other = name
            · subst same
              obtain ⟨old, reference⟩ := own holds.symm
              rw [lookup, lookup, fieldsAt_insert_self, found]
              exact within.get_other old reference
            · rw [lookup, lookup, fieldsAt_congr (Fields.get_insert_of_ne _ _ (Ne.symm same))]

theorem migrateAt_settled {writes : List (Write ConfigError)}
    (named : validateName place.filename = .ok ()) (distinct : place.referenceKey ≠ place.oldKey)
    (moved : migrateAt directory object place = ⟨writes, .ok after⟩) :
    Settled directory object after writes place := by
  rcases migrateAt_ok named moved with ⟨missing, rfl, rfl⟩ | ⟨inner, inner', found, within, shape⟩
  · have absent (key : String) : lookup place.container key after = none := by
      rw [lookup, missing]
      rfl
    exact {
      old := absent _
      reference := by rw [referenceAfter, absent, absent]
      movable := by
        intro value held
        rw [absent] at held
        cases held
      stored := by
        intro secret held
        rw [absent] at held
        cases held
      objectKept := fun key _ => ⟨rfl, fun _ => rfl⟩ }
  · have before (key : String) : lookup place.container key object = Fields.get inner key := by
      rw [lookup, found]
      rfl
    have now (key : String) : lookup place.container key after = Fields.get inner' key := by
      cases holds : place.container with
      | none =>
          rw [holds] at shape
          rw [shape, lookup_none]
      | some name =>
          rw [holds] at shape
          rw [shape, lookup, fieldsAt_insert_self]
          rfl
    exact {
      old := by rw [now, within.old_absent distinct]
      reference := by rw [now, within.reference_value, referenceAfter, before, before]
      movable := by
        intro value held
        rw [before] at held
        exact within.movable held
      stored := by
        intro secret held filled
        rw [before] at held
        exact within.stored_mem held filled
      objectKept := by
        intro key holds
        rw [holds] at found shape
        refine ⟨by rw [shape, fieldsAt_insert_self, found]; rfl, fun missing => ?_⟩
        rw [found] at missing
        cases missing }

theorem migrateSecret_targets (named : validateName place.filename = .ok ()) :
    ((migrateSecret object place.oldKey place.referenceKey directory place.filename).writes.map
      Write.target).Sublist [secretTarget directory place.filename] := by
  unfold migrateSecret
  split
  · exact List.nil_sublist _
  · rename_i value found
    dsimp only
    split
    · exact List.nil_sublist _
    · rename_i secret text
      split
      · exact List.nil_sublist _
      · cases blank : isBlank secret with
        | true =>
            rw [storeOwnerSecret_blank named blank]
            exact List.nil_sublist _
        | false =>
            rw [storeOwnerSecret_eq named blank]
            exact List.Sublist.refl _

theorem migrateAt_targets (named : validateName place.filename = .ok ()) :
    ((migrateAt directory object place).writes.map Write.target).Sublist
      [secretTarget directory place.filename] := by
  unfold migrateAt
  split
  · exact migrateSecret_targets named
  · unfold migrateNested
    split
    · rename_i inner found
      rw [← List.append_nil [secretTarget directory place.filename]]
      exact Plan.bind_writes_sublist (migrateSecret_targets named) fun _ => List.nil_sublist _
    · exact List.nil_sublist _

theorem migrateAt_ok_iff (directory : String) (named : validateName place.filename = .ok ()) :
    (∃ after, (migrateAt directory object place).result = .ok after) ↔
      ∀ value, lookup place.container place.oldKey object = some value → Movable value := by
  unfold migrateAt
  cases holds : place.container with
  | none => exact migrateSecret_ok_iff directory named
  | some key =>
      dsimp only
      unfold migrateNested
      split
      · rename_i inner found
        have within : lookup (some key) place.oldKey object = Fields.get inner place.oldKey := by
          simp [lookup, fieldsAt, found]
        rw [within, ← migrateSecret_ok_iff directory named]
        constructor
        · rintro ⟨after, ok⟩
          obtain ⟨middle, first, _, _⟩ := Plan.bind_result_ok ok
          exact ⟨middle, first⟩
        · rintro ⟨middle, first⟩
          rw [Plan.bind_ok _ first]
          exact ⟨_, rfl⟩
      · rename_i other
        have missing : fieldsAt (some key) object = none := by
          unfold fieldsAt
          dsimp only
          split
          · rename_i inner found
            exact absurd found (other inner)
          · rfl
        simp [lookup, missing]

/-! ## All places -/

/-- A place does not touch what another one is about. -/
def Place.Free (place other : Place) : Prop :=
  ¬ place.Touches other.container other.oldKey ∧
    ¬ place.Touches other.container other.referenceKey ∧
    ∀ name ∈ other.container, ¬ place.Touches none name

instance (place other : Place) : Decidable (place.Free other) :=
  inferInstanceAs (Decidable (_ ∧ _ ∧ _))

/-- What a list of places must be for one pass to move all their secrets. -/
structure Orderly (places : List Place) : Prop where
  named : ∀ place ∈ places, validateName place.filename = .ok ()
  distinct : ∀ place ∈ places, place.referenceKey ≠ place.oldKey
  free : places.Pairwise fun left right => left.Free right ∧ right.Free left

theorem legacyPlaces_orderly : Orderly legacyPlaces :=
  ⟨by decide, by decide, by decide⟩

section All

variable {rest places : List Place} {writes others : List (Write ConfigError)} {middle : Fields}

theorem Orderly.tail (orderly : Orderly (place :: rest)) : Orderly rest where
  named other member := orderly.named other (by simp [member])
  distinct other member := orderly.distinct other (by simp [member])
  free := (List.pairwise_cons.mp orderly.free).2

/-- Moving the other secrets keeps what was settled. -/
theorem Settled.later (settled : Settled directory object middle writes place)
    (kept : ∀ container key, (container = place.container ∧
      (key = place.oldKey ∨ key = place.referenceKey)) ∨
      (container = none ∧ place.container = some key) →
      lookup container key after = lookup container key middle) :
    Settled directory object after (writes ++ others) place where
  old := by rw [kept _ _ (Or.inl ⟨rfl, Or.inl rfl⟩), settled.old]
  reference := by rw [kept _ _ (Or.inl ⟨rfl, Or.inr rfl⟩), settled.reference]
  movable := settled.movable
  stored := fun secret held filled => List.mem_append_left others (settled.stored secret held filled)
  objectKept := by
    intro key holds
    have same : Fields.get after key = Fields.get middle key := kept none key (Or.inr ⟨rfl, holds⟩)
    obtain ⟨shape, scalar⟩ := settled.objectKept key holds
    exact ⟨by rw [fieldsAt_congr same, shape], fun missing => same.trans (scalar missing)⟩

theorem Settled.earlier (settled : Settled directory middle after others place)
    (kept : ∀ container key, (container = place.container ∧
      (key = place.oldKey ∨ key = place.referenceKey)) ∨
      (container = none ∧ place.container = some key) →
      lookup container key middle = lookup container key object) :
    Settled directory object after (writes ++ others) place := by
  have old := kept _ _ (Or.inl ⟨rfl, Or.inl rfl⟩)
  have reference := kept _ _ (Or.inl ⟨rfl, Or.inr rfl⟩)
  exact {
    old := settled.old
    reference := by rw [settled.reference, referenceAfter, referenceAfter, old, reference]
    movable := fun value held => settled.movable value (old.trans held)
    stored := fun secret held filled =>
      List.mem_append_right writes (settled.stored secret (old.trans held) filled)
    objectKept := by
      intro key holds
      have same : Fields.get middle key = Fields.get object key :=
        kept none key (Or.inr ⟨rfl, holds⟩)
      obtain ⟨shape, scalar⟩ := settled.objectKept key holds
      rw [fieldsAt_congr same] at shape scalar
      exact ⟨shape, fun missing => (scalar missing).trans same⟩ }

theorem Place.Free.kept {other : Place} (free : place.Free other) {container : Option String}
    {key : String} (about : (container = other.container ∧
      (key = other.oldKey ∨ key = other.referenceKey)) ∨
      (container = none ∧ other.container = some key)) : ¬ place.Touches container key := by
  rcases about with ⟨rfl, rfl | rfl⟩ | ⟨rfl, holds⟩
  · exact free.1
  · exact free.2.1
  · exact free.2.2 key holds

theorem migrateAll_settled (orderly : Orderly places)
    (moved : migrateAll directory places object = ⟨writes, .ok after⟩) :
    (∀ place ∈ places, Settled directory object after writes place) ∧
      ∀ container key, (∀ place ∈ places, ¬ place.Touches container key) →
        lookup container key after = lookup container key object := by
  induction places generalizing object writes with
  | nil =>
      cases moved
      exact ⟨by simp, fun _ _ _ => rfl⟩
  | cons place rest inductionHypothesis =>
      have named := orderly.named place (by simp)
      obtain ⟨middle, first, second, written⟩ := Plan.bind_result_ok (congrArg Plan.result moved)
      have here : migrateAt directory object place =
          ⟨(migrateAt directory object place).writes, .ok middle⟩ := by rw [← first]
      have there : migrateAll directory rest middle =
          ⟨(migrateAll directory rest middle).writes, .ok after⟩ := by rw [← second]
      have parts : writes = (migrateAt directory object place).writes ++
          (migrateAll directory rest middle).writes := by
        rw [← written]
        exact (congrArg Plan.writes moved).symm
      have settled := migrateAt_settled named (orderly.distinct place (by simp)) here
      obtain ⟨others, frame⟩ := inductionHypothesis orderly.tail there
      have free := (List.pairwise_cons.mp orderly.free).1
      rw [parts]
      constructor
      · intro other member
        rcases List.mem_cons.mp member with rfl | present
        · exact settled.later fun container key about => frame container key fun next present =>
            (free next present).2.kept about
        · exact (others other present).earlier fun container key about =>
            migrateAt_frame named here ((free other present).1.kept about)
      · intro container key untouched
        rw [frame container key fun next present => untouched next (by simp [present]),
          migrateAt_frame named here (untouched place (by simp))]

theorem migrateAll_targets (orderly : Orderly places) :
    ((migrateAll directory places object).writes.map Write.target).Sublist
      (places.map fun place => secretTarget directory place.filename) := by
  induction places generalizing object with
  | nil => exact List.nil_sublist _
  | cons place rest inductionHypothesis =>
      have first : ((migrateAt directory object place).writes.map Write.target).Sublist
          [secretTarget directory place.filename] :=
        migrateAt_targets (orderly.named place (by simp))
      exact Plan.bind_writes_sublist first fun middle => inductionHypothesis orderly.tail

theorem migrateAll_ok_iff (directory : String) (orderly : Orderly places) :
    (∃ after, (migrateAll directory places object).result = .ok after) ↔
      ∀ place ∈ places, ∀ value, lookup place.container place.oldKey object = some value →
        Movable value := by
  induction places generalizing object with
  | nil => simp [migrateAll]
  | cons place rest inductionHypothesis =>
      have named := orderly.named place (by simp)
      have free := (List.pairwise_cons.mp orderly.free).1
      rw [List.forall_mem_cons, ← migrateAt_ok_iff directory named]
      constructor
      · rintro ⟨after, ok⟩
        obtain ⟨middle, first, second, _⟩ := Plan.bind_result_ok ok
        have here : migrateAt directory object place =
          ⟨(migrateAt directory object place).writes, .ok middle⟩ := by rw [← first]
        refine ⟨⟨middle, first⟩, ?_⟩
        intro other present value held
        have same := migrateAt_frame named here ((free other present).1.kept (Or.inl ⟨rfl, Or.inl rfl⟩))
        exact (inductionHypothesis orderly.tail).mp ⟨after, second⟩ other present value
          (same.trans held)
      · rintro ⟨⟨middle, first⟩, others⟩
        have here : migrateAt directory object place =
          ⟨(migrateAt directory object place).writes, .ok middle⟩ := by rw [← first]
        have movable : ∀ other ∈ rest, ∀ value,
            lookup other.container other.oldKey middle = some value → Movable value := by
          intro other present value held
          have same := migrateAt_frame named here
            ((free other present).1.kept (Or.inl ⟨rfl, Or.inl rfl⟩))
          exact others other present value (same.symm.trans held)
        obtain ⟨after, second⟩ := (inductionHypothesis orderly.tail).mpr movable
        exact ⟨after, by rw [migrateAll, Plan.bind_ok _ first, second]⟩

theorem migrateAt_canonical (named : validateName place.filename = .ok ())
    (moved : migrateAt directory object place = ⟨writes, .ok after⟩)
    (held : (Value.object object).canonical 127 = true) :
    (Value.object after).canonical 127 = true := by
  rcases migrateAt_ok named moved with ⟨missing, rfl, rfl⟩ | ⟨inner, inner', found, within, shape⟩
  · exact held
  · cases holds : place.container with
    | none =>
        rw [holds] at found shape
        cases found
        subst shape
        exact within.canonical held
    | some name =>
        rw [holds] at found shape
        subst shape
        have nested := canonical_get held (fieldsAt_some found)
        exact canonical_insert held _ _ (within.canonical nested)

theorem migrateAll_canonical (orderly : Orderly places)
    (moved : migrateAll directory places object = ⟨writes, .ok after⟩)
    (held : (Value.object object).canonical 127 = true) :
    (Value.object after).canonical 127 = true := by
  induction places generalizing object writes with
  | nil =>
      cases moved
      exact held
  | cons place rest inductionHypothesis =>
      obtain ⟨middle, first, second, _⟩ := Plan.bind_result_ok (congrArg Plan.result moved)
      have here : migrateAt directory object place =
          ⟨(migrateAt directory object place).writes, .ok middle⟩ := by rw [← first]
      have there : migrateAll directory rest middle =
          ⟨(migrateAll directory rest middle).writes, .ok after⟩ := by rw [← second]
      exact inductionHypothesis orderly.tail there
        (migrateAt_canonical (orderly.named place (by simp)) here held)

end All

end SystemPilot.Configuration
