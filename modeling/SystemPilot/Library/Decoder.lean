import Mathlib.Tactic

/-!
# Decoders of a token stream

A decoder takes tokens from the front of its input.  Two rules compose along its
binds.  A local decoder looks at no token behind those it takes, so that none of
the strict beginnings of what it takes decodes.  A decoder recovers a written
value under a condition when it returns the value if and only if that condition
holds.
-/

set_option autoImplicit false

namespace SystemPilot.Library

/-- What is read from the tokens ahead, with those that are left. -/
abbrev Decoder (Token Error : Type) := StateT (List Token) (Except Error)

namespace Decoder

variable {Token Error A B : Type}

/-- `Read::read_exact` of `count` tokens; `short` is its error at the end of the input. -/
def exactly (short : Error) (count : Nat) : Decoder Token Error (List Token) := fun input =>
  if input.length < count then .error short else .ok (input.take count, input.drop count)

/-- One value after another. -/
def many (decoder : Decoder Token Error A) : Nat → Decoder Token Error (List A)
  | 0 => pure []
  | count + 1 => do
      let first ← decoder
      let rest ← many decoder count
      pure (first :: rest)

theorem run_pure (value : A) (input : List Token) :
    (pure value : Decoder Token Error A).run input = .ok (value, input) := rfl

theorem run_bind (decoder : Decoder Token Error A) (next : A → Decoder Token Error B)
    (input : List Token) :
    (decoder >>= next).run input = (decoder.run input).bind fun taken =>
      (next taken.1).run taken.2 := rfl

theorem run_bind_ok {decoder : Decoder Token Error A} {next : A → Decoder Token Error B}
    {input rest : List Token} {value : B} :
    (decoder >>= next).run input = .ok (value, rest) ↔
      ∃ first between, decoder.run input = .ok (first, between) ∧
        (next first).run between = .ok (value, rest) := by
  rw [run_bind]
  cases decoded : decoder.run input with
  | error error => simp [Except.bind]
  | ok taken =>
      constructor
      · intro later
        exact ⟨taken.1, taken.2, rfl, later⟩
      · rintro ⟨first, between, same, later⟩
        cases same
        exact later

theorem run_exactly {short : Error} {part : List Token} (more : List Token) :
    (exactly short part.length).run (part ++ more) = .ok (part, more) := by
  change (if (part ++ more).length < part.length then _ else _) = _
  rw [if_neg (by rw [List.length_append]; omega), List.take_left, List.drop_left]

theorem run_exactly_ok {short : Error} {count : Nat} {input part rest : List Token} :
    (exactly short count).run input = .ok (part, rest) ↔
      part.length = count ∧ input = part ++ rest := by
  constructor
  · intro decoded
    change (if input.length < count then _ else _) = _ at decoded
    split at decoded
    · cases decoded
    · rename_i enough
      cases decoded
      exact ⟨by rw [List.length_take]; omega, (List.take_append_drop count input).symm⟩
  · rintro ⟨rfl, rfl⟩
    exact run_exactly rest

/-! ## Locality -/

/-- A successful run takes a first part of its input, whatever stands behind it. -/
def Local (decoder : Decoder Token Error A) : Prop :=
  ∀ input value rest, decoder.run input = .ok (value, rest) →
    ∃ taken, input = taken ++ rest ∧ ∀ more, decoder.run (taken ++ more) = .ok (value, more)

theorem local_pure (value : A) : Local (pure value : Decoder Token Error A) := by
  intro input result rest decoded
  cases decoded
  exact ⟨[], rfl, fun _ => rfl⟩

theorem local_throw (error : Error) : Local (throw error : Decoder Token Error A) := by
  intro input result rest decoded
  cases decoded

theorem local_exactly (short : Error) (count : Nat) :
    Local (exactly short count : Decoder Token Error (List Token)) := by
  intro input part rest decoded
  obtain ⟨rfl, whole⟩ := run_exactly_ok.mp decoded
  exact ⟨part, whole, run_exactly⟩

theorem Local.bind {decoder : Decoder Token Error A} {next : A → Decoder Token Error B}
    (first : Local decoder) (later : ∀ value, Local (next value)) : Local (decoder >>= next) := by
  intro input result rest decoded
  obtain ⟨value, between, here, there⟩ := run_bind_ok.mp decoded
  obtain ⟨taken, whole, again⟩ := first _ _ _ here
  obtain ⟨takenLater, wholeLater, againLater⟩ := later value _ _ _ there
  refine ⟨taken ++ takenLater, by rw [whole, wholeLater, List.append_assoc], ?_⟩
  intro more
  rw [List.append_assoc]
  exact run_bind_ok.mpr ⟨value, takenLater ++ more, again _, againLater more⟩

theorem Local.ite {condition : Prop} [Decidable condition] {yes no : Decoder Token Error A}
    (first : Local yes) (second : Local no) : Local (if condition then yes else no) := by
  split
  · exact first
  · exact second

theorem Local.many {decoder : Decoder Token Error A} (each : Local decoder) (count : Nat) :
    Local (decoder.many count) := by
  induction count with
  | zero => exact local_pure []
  | succ count inductionHypothesis =>
      exact each.bind fun first => inductionHypothesis.bind fun rest => local_pure _

/-- What a local decoder takes whole it does not take in part. -/
theorem Local.error_of_take {decoder : Decoder Token Error A} (locality : Local decoder)
    {bytes : List Token} {value : A} (whole : decoder.run bytes = .ok (value, []))
    {cut : Nat} (short : cut < bytes.length) :
    ∃ error, decoder.run (bytes.take cut) = .error error := by
  cases decoded : decoder.run (bytes.take cut) with
  | error error => exact ⟨error, rfl⟩
  | ok taken =>
      obtain ⟨first, split, again⟩ := locality _ taken.1 taken.2 decoded
      have longer : bytes = first ++ (taken.2 ++ bytes.drop cut) := by
        rw [← List.append_assoc, ← split, List.take_append_drop]
      have same := again (taken.2 ++ bytes.drop cut)
      rw [← longer, whole] at same
      have left : (taken.2 ++ bytes.drop cut).length = 0 :=
        List.length_eq_zero_iff.mpr (Prod.mk.inj (Except.ok.inj same)).2.symm
      rw [List.length_append, List.length_drop] at left
      omega

/-! ## Recovery -/

/-- The decoder returns the value from its bytes, whatever follows them, if and
only if the value fits. -/
structure Recovers (decoder : Decoder Token Error A) (bytes : List Token) (value : A)
    (fits : Prop) : Prop where
  returns : fits → ∀ more, decoder.run (bytes ++ more) = .ok (value, more)
  fitting : ∀ more rest, decoder.run (bytes ++ more) = .ok (value, rest) → fits

theorem recovers_pure (value : A) : Recovers (pure value : Decoder Token Error A) [] value True :=
  ⟨fun _ _ => rfl, fun _ _ _ => trivial⟩

theorem recovers_exactly (short : Error) (part : List Token) :
    Recovers (exactly short part.length) part part True :=
  ⟨fun _ more => run_exactly more, fun _ _ _ => trivial⟩

theorem Recovers.congr {decoder : Decoder Token Error A} {bytes : List Token} {value : A}
    {fits fits' : Prop} (recovers : Recovers decoder bytes value fits) (same : fits ↔ fits') :
    Recovers decoder bytes value fits' :=
  ⟨fun holds => recovers.returns (same.mpr holds),
    fun more rest decoded => same.mp (recovers.fitting more rest decoded)⟩

/-- The values a decoder can return. -/
def Returns (decoder : Decoder Token Error A) (property : A → Prop) : Prop :=
  ∀ input value rest, decoder.run input = .ok (value, rest) → property value

theorem returns_pure {property : A → Prop} {value : A} (holds : property value) :
    Returns (pure value : Decoder Token Error A) property := by
  intro input result rest decoded
  cases decoded
  exact holds

theorem returns_bind {decoder : Decoder Token Error A} {next : A → Decoder Token Error B}
    {property : B → Prop} (later : ∀ value, Returns (next value) property) :
    Returns (decoder >>= next) property := by
  intro input result rest decoded
  obtain ⟨value, between, _, there⟩ := run_bind_ok.mp decoded
  exact later value between result rest there

/-- A part of the value that the rest of the decoder puts into its place. -/
theorem Recovers.field {decoder : Decoder Token Error A} {next : A → Decoder Token Error B}
    {part rest : List Token} {value : B} {firstFits fits : Prop} (place : B → A)
    (here : Recovers decoder part (place value) firstFits)
    (there : Recovers (next (place value)) rest value fits)
    (placed : ∀ first, Returns (next first) fun result => place result = first) :
    Recovers (decoder >>= next) (part ++ rest) value (firstFits ∧ fits) := by
  constructor
  · rintro ⟨firstHolds, holds⟩ more
    rw [List.append_assoc]
    exact run_bind_ok.mpr
      ⟨place value, rest ++ more, here.returns firstHolds _, there.returns holds more⟩
  · intro more left decoded
    obtain ⟨other, between, before, after⟩ := run_bind_ok.mp decoded
    obtain rfl := placed other between value left after
    rw [List.append_assoc] at before
    have firstHolds := here.fitting _ _ before
    have same := (here.returns firstHolds (rest ++ more)).symm.trans before
    obtain rfl := (Prod.mk.inj (Except.ok.inj same)).2
    exact ⟨firstHolds, there.fitting more left after⟩

/-- The last part of a value. -/
theorem Recovers.last {decoder : Decoder Token Error A} {part : List Token} {value : B}
    {fits : Prop} {make : A → B} (place : B → A)
    (here : Recovers decoder part (place value) fits) (made : make (place value) = value)
    (placed : ∀ first, place (make first) = first) :
    Recovers (decoder >>= fun first => pure (make first)) part value fits := by
  have closing : Recovers (pure (make (place value)) : Decoder Token Error B) [] value True := by
    rw [made]
    exact recovers_pure value
  have whole : Recovers (decoder >>= fun first => pure (make first)) (part ++ []) value
      (fits ∧ True) :=
    here.field place closing fun first => returns_pure (placed first)
  rw [List.append_nil] at whole
  exact whole.congr (and_iff_left trivial)

theorem length_of_many (decoder : Decoder Token Error A) (count : Nat) :
    Returns (decoder.many count) fun values => values.length = count := by
  induction count with
  | zero => exact returns_pure rfl
  | succ count inductionHypothesis =>
      refine returns_bind fun first => ?_
      intro input values rest decoded
      obtain ⟨others, between, there, last⟩ := run_bind_ok.mp decoded
      cases last
      rw [List.length_cons, inductionHypothesis _ _ _ there]

theorem recovers_many {decoder : Decoder Token Error A} {write : A → List Token}
    {fits : A → Prop} (values : List A)
    (each : ∀ value ∈ values, Recovers decoder (write value) value (fits value)) :
    Recovers (decoder.many values.length) (values.flatMap write) values
      (∀ value ∈ values, fits value) := by
  induction values with
  | nil => exact (recovers_pure []).congr (by simp)
  | cons value values inductionHypothesis =>
      have others := inductionHypothesis fun other member => each other (by simp [member])
      have first := each value (by simp)
      constructor
      · intro holds more
        rw [List.flatMap_cons, List.append_assoc]
        refine run_bind_ok.mpr ⟨value, values.flatMap write ++ more,
          first.returns (holds value (by simp)) _, ?_⟩
        exact run_bind_ok.mpr ⟨values, more,
          others.returns (fun other member => holds other (by simp [member])) more, rfl⟩
      · intro more left decoded
        rw [List.flatMap_cons, List.append_assoc] at decoded
        obtain ⟨value', between, before, later⟩ := run_bind_ok.mp decoded
        obtain ⟨values', between', middle, last⟩ := run_bind_ok.mp later
        cases last
        have firstFits := first.fitting _ _ before
        have same := (first.returns firstFits _).symm.trans before
        obtain rfl := (Prod.mk.inj (Except.ok.inj same)).2
        have othersFit := others.fitting _ _ middle
        intro other member
        rcases List.mem_cons.mp member with rfl | later
        · exact firstFits
        · exact othersFit other later

end Decoder

end SystemPilot.Library
