import Mathlib.Tactic
import SystemPilot.Text
import SystemPilot.Telemetry.Redaction

/-!
# Addresses and their text

The text `std::net` displays an address as, and that its parser reads every such
text.  What the parser accepts is spelled with hexadecimal digits, colons and
dots, so nothing with a bracket is an address.
-/

set_option autoImplicit false

namespace SystemPilot.Telemetry

open SystemPilot.Text

/-! ## Displayed addresses -/

structure Ipv4Addr where
  octets : Fin 256 × Fin 256 × Fin 256 × Fin 256
  deriving DecidableEq, Repr

structure Ipv6Addr where
  segments : List (Fin 65536)
  eight : segments.length = 8

def octetText (octet : Fin 256) : List Char := Nat.toDigits 10 octet

/-- `Display` of `Ipv4Addr`. -/
def Ipv4Addr.text (address : Ipv4Addr) : List Char :=
  let (first, second, third, fourth) := address.octets
  octetText first ++ '.' :: (octetText second ++ '.' :: (octetText third ++ '.' :: octetText fourth))

def segmentText (segment : Fin 65536) : List Char := Nat.toDigits 16 segment

/-- The segments after the first, each behind its colon. -/
def segmentsTail (segments : List (Fin 65536)) : List Char :=
  segments.flatMap fun segment => ':' :: segmentText segment

/-- `fmt_subslice`: the segments with colons between them. -/
def fmtSubslice : List (Fin 65536) → List Char
  | [] => []
  | first :: rest => segmentText first ++ segmentsTail rest

structure Span where
  start : Nat := 0
  len : Nat := 0
  deriving DecidableEq, Repr

/-- One segment of the search for the longest run of zeroes. -/
def Span.scan (index : Nat) (longest current : Span) (segment : Fin 65536) : Span × Span :=
  if segment = 0 then
    let current : Span :=
      { start := if current.len = 0 then index else current.start, len := current.len + 1 }
    (if longest.len < current.len then current else longest, current)
  else (longest, {})

def zeroesFrom (index : Nat) (longest current : Span) : List (Fin 65536) → Span
  | [] => longest
  | segment :: rest =>
      zeroesFrom (index + 1) (Span.scan index longest current segment).1
        (Span.scan index longest current segment).2 rest

/-- `to_ipv4_mapped`: the address embedded in `::ffff:0:0/96`. -/
def Ipv6Addr.toIpv4Mapped (address : Ipv6Addr) : Option Ipv4Addr :=
  match address.segments with
  | [0, 0, 0, 0, 0, 65535, high, low] =>
      some { octets := (⟨high / 256, by omega⟩, ⟨high % 256, by omega⟩,
        ⟨low / 256, by omega⟩, ⟨low % 256, by omega⟩) }
  | _ => none

/-- `Display` of `Ipv6Addr`. -/
def Ipv6Addr.text (address : Ipv6Addr) : List Char :=
  match address.toIpv4Mapped with
  | some ipv4 => "::ffff:".toList ++ ipv4.text
  | none =>
      let zeroes := zeroesFrom 0 {} {} address.segments
      if 1 < zeroes.len then
        fmtSubslice (address.segments.take zeroes.start) ++ ':' :: ':' ::
          fmtSubslice (address.segments.drop (zeroes.start + zeroes.len))
      else fmtSubslice address.segments

/-- `Display` of `SocketAddrV6`: the address in brackets, then the port. -/
def bracketedText (address : Ipv6Addr) (port : Fin 65536) : List Char :=
  '[' :: (address.text ++ ']' :: ':' :: Nat.toDigits 10 port)

/-- The texts of an address and of a socket address. -/
inductive AddressText : List Char → Prop where
  | v4 (address : Ipv4Addr) : AddressText address.text
  | v4Socket (address : Ipv4Addr) (port : Fin 65536) :
      AddressText (address.text ++ ':' :: Nat.toDigits 10 port)
  | v6 (address : Ipv6Addr) : AddressText address.text
  | v6Socket (address : Ipv6Addr) (port : Fin 65536) : AddressText (bracketedText address port)

/-! ## The run of zeroes -/

/-- The spans found so far lie within the segments read. -/
theorem scan_bounds {index : Nat} {longest current : Span} (segment : Fin 65536)
    (longestEnds : longest.start + longest.len ≤ index)
    (currentEnds : current.len ≠ 0 → current.start + current.len = index) :
    let next := Span.scan index longest current segment
    next.1.start + next.1.len ≤ index + 1 ∧
      (next.2.len ≠ 0 → next.2.start + next.2.len = index + 1) := by
  have grown : (if current.len = 0 then index else current.start) + (current.len + 1) = index + 1 := by
    split
    · omega
    · have ends := currentEnds ‹_›
      omega
  simp only [Span.scan]
  by_cases zero : segment = 0
  · rw [if_pos zero]
    refine ⟨?_, fun _ => grown⟩
    by_cases longer : longest.len < current.len + 1
    · rw [if_pos longer]
      exact grown.le
    · rw [if_neg longer]
      exact Nat.le_succ_of_le longestEnds
  · rw [if_neg zero]
    exact ⟨Nat.le_succ_of_le longestEnds, fun nonempty => absurd rfl nonempty⟩

theorem zeroesFrom_bounds (segments : List (Fin 65536)) (index : Nat) (longest current : Span)
    (longestEnds : longest.start + longest.len ≤ index)
    (currentEnds : current.len ≠ 0 → current.start + current.len = index) :
    (zeroesFrom index longest current segments).start +
      (zeroesFrom index longest current segments).len ≤ index + segments.length := by
  induction segments generalizing index longest current with
  | nil => exact longestEnds
  | cons segment rest inductionHypothesis =>
      obtain ⟨nextLongest, nextCurrent⟩ := scan_bounds segment longestEnds currentEnds
      have bound := inductionHypothesis _ _ _ nextLongest nextCurrent
      rw [zeroesFrom, List.length_cons]
      omega

/-! ## Reading numbers -/

/-- The bases addresses are written in. -/
def AddressBase (radix : Nat) : Prop := radix = 10 ∨ radix = 16

theorem toDigit_digitChar {radix digit : Nat} (base : AddressBase radix) (small : digit < radix) :
    toDigit radix digit.digitChar = some digit := by
  have decimal : ∀ digit : Fin 10, toDigit 10 (Nat.digitChar digit) = some digit.val := by decide
  have hexadecimal : ∀ digit : Fin 16, toDigit 16 (Nat.digitChar digit) = some digit.val := by decide
  rcases base with rfl | rfl
  · exact decimal ⟨digit, small⟩
  · exact hexadecimal ⟨digit, small⟩

theorem AddressBase.one_lt {radix : Nat} (base : AddressBase radix) : 1 < radix := by
  rcases base with rfl | rfl <;> decide

/-- `read_number`'s value of a text of digits. -/
def digitsValue (radix : Nat) (digits : List Char) : Nat :=
  digits.foldl (fun result character => result * radix + (toDigit radix character).getD 0) 0

theorem digitsValue_toDigits {radix : Nat} (base : AddressBase radix) (value : Nat) :
    digitsValue radix (Nat.toDigits radix value) = value ∧
      ∀ character ∈ Nat.toDigits radix value, (toDigit radix character).isSome = true := by
  induction value using Nat.strong_induction_on with
  | _ value inductionHypothesis =>
      rw [Nat.toDigits_eq_if base.one_lt]
      by_cases single : value < radix
      · rw [if_pos single]
        constructor
        · simp [digitsValue, toDigit_digitChar base single]
        · intro character member
          rw [List.mem_singleton.mp member, toDigit_digitChar base single]
          rfl
      · rw [if_neg single]
        have positive : 0 < radix := Nat.lt_of_succ_lt base.one_lt
        have smaller : value / radix < value :=
          Nat.div_lt_self (by omega) base.one_lt
        have lastDigit : value % radix < radix := Nat.mod_lt _ positive
        obtain ⟨high, digits⟩ := inductionHypothesis (value / radix) smaller
        constructor
        · rw [digitsValue, List.foldl_append]
          rw [digitsValue] at high
          simp only [high, List.foldl_cons, List.foldl_nil, toDigit_digitChar base lastDigit,
            Option.getD_some]
          exact Nat.div_add_mod' value radix
        · intro character member
          rcases List.mem_append.mp member with upper | lower
          · exact digits character upper
          · rw [List.mem_singleton.mp lower, toDigit_digitChar base lastDigit]
            rfl

/-- Only zero starts with the digit zero. -/
theorem toDigits_head_zero {radix : Nat} (base : AddressBase radix) (value : Nat)
    (zero : (Nat.toDigits radix value).head? = some '0') :
    (Nat.toDigits radix value).length = 1 := by
  induction value using Nat.strong_induction_on with
  | _ value inductionHypothesis =>
      rw [Nat.toDigits_eq_if base.one_lt] at zero ⊢
      by_cases single : value < radix
      · rw [if_pos single]
        rfl
      · rw [if_neg single] at zero ⊢
        have radixPositive : 0 < radix := Nat.lt_of_succ_lt base.one_lt
        have smaller : value / radix < value := Nat.div_lt_self (by omega) base.one_lt
        have nonempty : Nat.toDigits radix (value / radix) ≠ [] := Nat.toDigits_ne_nil
        rw [List.head?_append_of_ne_nil _ nonempty] at zero
        have one := inductionHypothesis _ smaller zero
        -- A single digit zero is the number zero, which is no quotient here.
        have quotient := (digitsValue_toDigits base (value / radix)).1
        obtain ⟨digit, shape⟩ := List.length_eq_one_iff.mp one
        rw [shape] at zero quotient
        cases zero
        have isZero : digitsValue radix ['0'] = 0 := by
          rcases base with rfl | rfl <;> decide
        have positive : 0 < value / radix := Nat.div_pos (by omega) radixPositive
        omega

/-- The text goes on with something that is no digit of this base. -/
def EndsDigits (radix : Nat) (rest : List Char) : Prop :=
  ∀ character ∈ rest.head?, toDigit radix character = none

theorem readNumber_toDigits {radix maxDigits bound value : Nat} (base : AddressBase radix)
    (positive : 0 < maxDigits) (fits : value < bound) (short : value < radix ^ maxDigits)
    (allowZeroPrefix : Bool) {rest : List Char} (ends : EndsDigits radix rest) :
    readNumber radix maxDigits bound allowZeroPrefix (Nat.toDigits radix value ++ rest) =
      some rest := by
  obtain ⟨reads, digits⟩ := digitsValue_toDigits base value
  have taken : (Nat.toDigits radix value ++ rest).takeWhile
      (fun character => (toDigit radix character).isSome) = Nat.toDigits radix value := by
    rw [List.takeWhile_append_of_pos digits]
    cases rest with
    | nil => simp
    | cons head tail => simp [ends head rfl]
  have dropped : (Nat.toDigits radix value ++ rest).dropWhile
      (fun character => (toDigit radix character).isSome) = rest := by
    rw [List.dropWhile_append_of_pos digits]
    cases rest with
    | nil => rfl
    | cons head tail => simp [ends head rfl]
  have nonempty : (Nat.toDigits radix value).length ≠ 0 := by
    have some := Nat.length_toDigits_pos (b := radix) (n := value)
    omega
  have length : (Nat.toDigits radix value).length ≤ maxDigits :=
    (Nat.length_toDigits_le_iff base.one_lt positive).mpr short
  have head : (Nat.toDigits radix value ++ rest).head? = (Nat.toDigits radix value).head? :=
    List.head?_append_of_ne_nil _ Nat.toDigits_ne_nil
  have prefixed : ¬ (allowZeroPrefix = false ∧
      (Nat.toDigits radix value).head? = some '0' ∧ 1 < (Nat.toDigits radix value).length) := by
    rintro ⟨-, zero, long⟩
    have one := toDigits_head_zero base value zero
    omega
  rw [digitsValue] at reads
  simp only [readNumber, taken, dropped, head, reads]
  rw [if_neg (by omega), if_neg prefixed, if_pos fits]

/-! ## Reading IPv4 addresses -/

theorem toDigit_dot : toDigit 10 '.' = none := by decide

theorem readOctet {octet : Fin 256} {rest : List Char} (ends : EndsDigits 10 rest) :
    readNumber 10 3 256 false (octetText octet ++ rest) = some rest :=
  readNumber_toDigits (.inl rfl) (by omega) octet.isLt (by have bound := octet.isLt; omega) _ ends

theorem readIpv4Addr_text (address : Ipv4Addr) (rest : List Char) (ends : EndsDigits 10 rest) :
    readIpv4Addr (address.text ++ rest) = some rest := by
  obtain ⟨first, second, third, fourth⟩ := address
  have dotEnds : ∀ tail : List Char, EndsDigits 10 ('.' :: tail) := by
    intro tail character head
    cases head
    exact toDigit_dot
  simp only [Ipv4Addr.text, List.append_assoc, List.cons_append]
  simp only [readIpv4Addr, readSeparator, if_pos, readOctet (dotEnds _), Option.bind_eq_bind,
    Option.bind_some, if_neg (Nat.succ_ne_zero _), readOctet ends]

/-- An IPv4 address is read only where a dot follows. -/
theorem dot_of_readIpv4Addr {input rest : List Char} (read : readIpv4Addr input = some rest) :
    '.' ∈ input := by
  rw [readIpv4Addr] at read
  obtain ⟨afterFirst, first, read⟩ := Option.bind_eq_some_iff.mp read
  obtain ⟨afterSecond, second, -⟩ := Option.bind_eq_some_iff.mp read
  have suffix : afterFirst <:+ input := by
    simp only [readSeparator, if_true, readNumber] at first
    split at first
    · cases first
    · split at first
      · cases first
      · split at first
        · cases first
          exact List.dropWhile_suffix _
        · cases first
  cases afterFirst with
  | nil => cases second
  | cons head tail =>
      simp only [readSeparator, Nat.one_ne_zero, if_false] at second
      split at second
      · subst head
        exact suffix.subset List.mem_cons_self
      · cases second

/-! ## Reading IPv6 addresses -/

theorem readSegment (segment : Fin 65536) {rest : List Char} (ends : EndsDigits 16 rest) :
    readNumber 16 4 65536 true (segmentText segment ++ rest) = some rest :=
  readNumber_toDigits (.inr rfl) (by omega) segment.isLt
    (by have bound := segment.isLt; omega) _ ends

theorem toDigit_colon (radix : Nat) (base : AddressBase radix) : toDigit radix ':' = none := by
  rcases base with rfl | rfl <;> decide

/-- Where a group list ends: at the end of the text, or at a double colon. -/
def EndsGroups (rest : List Char) : Prop :=
  rest = [] ∨ ∃ tail, rest = ':' :: ':' :: tail

theorem readNumber_colon {radix maxDigits bound : Nat} (base : AddressBase radix)
    (allowZeroPrefix : Bool) (tail : List Char) :
    readNumber radix maxDigits bound allowZeroPrefix (':' :: tail) = none := by
  simp [readNumber, toDigit_colon radix base]

theorem readGroups_ends {limit slots index : Nat} {rest : List Char} (ends : EndsGroups rest)
    (dotless : '.' ∉ rest) : readGroups limit slots index rest = (index, false, rest) := by
  cases slots with
  | zero => rfl
  | succ slots =>
      have noAddress : readSeparator ':' index readIpv4Addr rest = none := by
        rcases ends with rfl | ⟨tail, rfl⟩
        · unfold readSeparator
          split <;> rfl
        · have whole : readIpv4Addr (':' :: ':' :: tail) = none := by
            rw [Option.eq_none_iff_forall_ne_some]
            intro unread read
            exact dotless (dot_of_readIpv4Addr read)
          have inner : readIpv4Addr (':' :: tail) = none := by
            rw [Option.eq_none_iff_forall_ne_some]
            intro unread read
            exact dotless (List.mem_cons_of_mem _ (dot_of_readIpv4Addr read))
          simp [readSeparator, whole, inner]
      have noGroup : readSeparator ':' index (readNumber 16 4 65536 true) rest = none := by
        rcases ends with rfl | ⟨tail, rfl⟩
        · unfold readSeparator
          split <;> rfl
        · simp [readSeparator, readNumber_colon (.inr rfl)]
      simp only [readGroups, noAddress, noGroup, ite_self]

/-- What stands before the group at this index. -/
def groupLead (index : Nat) (text : List Char) : List Char :=
  if index = 0 then text else ':' :: text

theorem readSeparator_lead (index : Nat) (inner : List Char → Option (List Char))
    (text : List Char) : readSeparator ':' index inner (groupLead index text) = inner text := by
  unfold readSeparator groupLead
  by_cases first : index = 0
  · simp only [if_pos first]
  · simp only [if_neg first, if_true]

/-- The segments from this index on, as they stand in a group list. -/
def groupsFrom (index : Nat) : List (Fin 65536) → List Char
  | [] => []
  | segment :: rest => groupLead index (segmentText segment) ++ segmentsTail rest

theorem groupsFrom_tail (index : Nat) (segments : List (Fin 65536)) :
    groupsFrom (index + 1) segments = segmentsTail segments := by
  cases segments with
  | nil => rfl
  | cons segment rest => simp [groupsFrom, groupLead, segmentsTail]

theorem fmtSubslice_eq (segments : List (Fin 65536)) :
    fmtSubslice segments = groupsFrom 0 segments := by
  cases segments with
  | nil => rfl
  | cons segment rest => simp [fmtSubslice, groupsFrom, groupLead]

/-- All groups up to the end of the list are read. -/
theorem readGroups_segments (limit slots index : Nat) (segments : List (Fin 65536))
    (rest : List Char) (room : segments.length ≤ slots) (ends : EndsGroups rest)
    (dotless : '.' ∉ groupsFrom index segments ++ rest) :
    readGroups limit slots index (groupsFrom index segments ++ rest) =
      (index + segments.length, false, rest) := by
  induction segments generalizing slots index with
  | nil => exact readGroups_ends ends dotless
  | cons segment later inductionHypothesis =>
      obtain ⟨slots, rfl⟩ : ∃ fewer, slots = fewer + 1 := ⟨slots - 1, by
        rw [List.length_cons] at room
        omega⟩
      have shape : groupsFrom index (segment :: later) ++ rest =
          groupLead index (segmentText segment ++ (groupsFrom (index + 1) later ++ rest)) := by
        rw [groupsFrom_tail, groupsFrom, groupLead, groupLead]
        split <;> simp
      have noAddress : readIpv4Addr
          (segmentText segment ++ (groupsFrom (index + 1) later ++ rest)) = none := by
        rw [Option.eq_none_iff_forall_ne_some]
        intro unread read
        have dot := dot_of_readIpv4Addr read
        rw [shape, groupLead] at dotless
        split at dotless
        · exact dotless dot
        · exact dotless (List.mem_cons_of_mem _ dot)
      have segmentEnds : EndsDigits 16 (groupsFrom (index + 1) later ++ rest) := by
        rw [groupsFrom_tail]
        intro character head
        have colon : character = ':' := by
          cases later with
          | nil =>
              rcases ends with rfl | ⟨tail, rfl⟩
              · cases head
              · cases head
                rfl
          | cons next more =>
              cases head
              rfl
        rw [colon]
        exact toDigit_colon 16 (.inr rfl)
      have laterDotless : '.' ∉ groupsFrom (index + 1) later ++ rest := by
        intro dot
        rw [shape, groupLead] at dotless
        split at dotless
        · exact dotless (List.mem_append_right _ dot)
        · exact dotless (List.mem_cons_of_mem _ (List.mem_append_right _ dot))
      rw [shape, readGroups]
      simp only [readSeparator_lead, noAddress, ite_self, readSegment segment segmentEnds]
      rw [inductionHypothesis _ _ (by rw [List.length_cons] at room; omega) laterDotless,
        List.length_cons]
      simp only [Prod.mk.injEq, and_true]
      omega

/-! ## The characters of addresses -/

def isAddressChar (character : Char) : Bool :=
  (toDigit 16 character).isSome || character == ':' || character == '.'

theorem toDigit_isSome_sixteen {character : Char} (digit : (toDigit 10 character).isSome = true) :
    (toDigit 16 character).isSome = true := by
  simp only [toDigit] at digit ⊢
  split at digit <;> grind

/-- The reader consumed a stretch of address characters. -/
def Consumes (input rest : List Char) : Prop :=
  ∃ used, input = used ++ rest ∧ used.all isAddressChar = true

theorem Consumes.refl (input : List Char) : Consumes input input := ⟨[], rfl, rfl⟩

theorem Consumes.trans {input middle rest : List Char} (first : Consumes input middle)
    (second : Consumes middle rest) : Consumes input rest := by
  obtain ⟨left, rfl, leftChars⟩ := first
  obtain ⟨right, rfl, rightChars⟩ := second
  exact ⟨left ++ right, (List.append_assoc _ _ _).symm, by
    rw [List.all_append, leftChars, rightChars]
    rfl⟩

theorem readNumber_consumes {radix maxDigits bound : Nat} (base : AddressBase radix)
    {allowZeroPrefix : Bool} {input rest : List Char}
    (read : readNumber radix maxDigits bound allowZeroPrefix input = some rest) :
    Consumes input rest := by
  simp only [readNumber] at read
  split at read
  · cases read
  · split at read
    · cases read
    · split at read
      · cases read
        refine ⟨_, List.takeWhile_append_dropWhile.symm, List.all_eq_true.mpr ?_⟩
        intro character member
        have digit := List.mem_takeWhile_imp member
        rcases base with rfl | rfl
        · simp [isAddressChar, toDigit_isSome_sixteen digit]
        · simp [isAddressChar, digit]
      · cases read

theorem readSeparator_consumes {separator : Char} (known : isAddressChar separator = true)
    {index : Nat} {inner : List Char → Option (List Char)} {input rest : List Char}
    (reads : ∀ {input rest}, inner input = some rest → Consumes input rest)
    (read : readSeparator separator index inner input = some rest) : Consumes input rest := by
  unfold readSeparator at read
  split at read
  · exact reads read
  · split at read
    · rename_i head tail
      split at read
      · subst head
        exact Consumes.trans ⟨[separator], rfl, by simp [known]⟩ (reads read)
      · cases read
    · cases read

theorem readIpv4Addr_consumes {input rest : List Char} (read : readIpv4Addr input = some rest) :
    Consumes input rest := by
  have octet : ∀ {index : Nat} {input rest : List Char},
      readSeparator '.' index (readNumber 10 3 256 false) input = some rest →
        Consumes input rest :=
    fun read => readSeparator_consumes (by decide) (readNumber_consumes (.inl rfl)) read
  rw [readIpv4Addr] at read
  obtain ⟨afterFirst, first, read⟩ := Option.bind_eq_some_iff.mp read
  obtain ⟨afterSecond, second, read⟩ := Option.bind_eq_some_iff.mp read
  obtain ⟨afterThird, third, fourth⟩ := Option.bind_eq_some_iff.mp read
  exact (((octet first).trans (octet second)).trans (octet third)).trans (octet fourth)

theorem readGroups_consumes (limit slots index : Nat) (input : List Char) :
    Consumes input (readGroups limit slots index input).2.2 := by
  induction slots generalizing index input with
  | zero => exact .refl input
  | succ slots inductionHypothesis =>
      rw [readGroups]
      split
      · rename_i rest read
        split at read
        · exact readSeparator_consumes (by decide) readIpv4Addr_consumes read
        · cases read
      · split
        · rename_i rest read
          exact (readSeparator_consumes (by decide) (readNumber_consumes (.inr rfl)) read).trans
            (inductionHypothesis (index + 1) rest)
        · exact .refl input

theorem readIpv6Addr_consumes {input rest : List Char} (read : readIpv6Addr input = some rest) :
    Consumes input rest := by
  unfold readIpv6Addr at read
  have consumed := readGroups_consumes 8 8 0 input
  simp only at read
  split at read
  · cases read
    exact consumed
  · split at read
    · cases read
    · split at read
      · rename_i tail shape
        rw [shape] at consumed
        cases read
        have colons : Consumes (':' :: ':' :: tail) tail := ⟨[':', ':'], rfl, by decide⟩
        exact (consumed.trans colons).trans (readGroups_consumes _ _ _ tail)
      · cases read

/-- An address is spelled with address characters only. -/
theorem all_of_isIpAddr {text : List Char} (address : isIpAddr text = true) :
    text.all isAddressChar = true := by
  have whole : ∀ rest, rest.isEmpty = true → Consumes text rest → text.all isAddressChar = true := by
    intro rest empty consumed
    obtain ⟨used, rfl, characters⟩ := consumed
    rw [List.isEmpty_iff.mp empty, List.append_nil]
    exact characters
  unfold isIpAddr at address
  split at address
  · exact whole _ address (readIpv4Addr_consumes ‹_›)
  · split at address
    · exact whole _ address (readIpv6Addr_consumes ‹_›)
    · cases address

/-! ## Displayed addresses are addresses -/

theorem all_toDigits {radix : Nat} (base : AddressBase radix) (value : Nat) :
    (Nat.toDigits radix value).all isAddressChar = true := by
  rw [List.all_eq_true]
  intro character member
  have digit := (digitsValue_toDigits base value).2 character member
  rcases base with rfl | rfl
  · simp [isAddressChar, toDigit_isSome_sixteen digit]
  · simp [isAddressChar, digit]

theorem not_mem_toDigits {radix : Nat} (base : AddressBase radix) (value : Nat) {character : Char}
    (other : toDigit radix character = none) : character ∉ Nat.toDigits radix value := by
  intro member
  have digit := (digitsValue_toDigits base value).2 character member
  rw [other] at digit
  cases digit

theorem dot_not_mem_fmtSubslice (segments : List (Fin 65536)) : '.' ∉ fmtSubslice segments := by
  have segment : ∀ segment : Fin 65536, '.' ∉ segmentText segment :=
    fun segment => not_mem_toDigits (.inr rfl) segment (by decide)
  cases segments with
  | nil => simp [fmtSubslice]
  | cons first rest =>
      simp only [fmtSubslice, segmentsTail, List.mem_append, List.mem_flatMap, List.mem_cons]
      rintro (inFirst | ⟨later, -, same | inLater⟩)
      · exact segment first inFirst
      · exact absurd same (by decide)
      · exact segment later inLater

theorem isIpAddr_of_readIpv6Addr {text : List Char} (notV4 : readIpv4Addr text = none)
    (read : readIpv6Addr text = some []) : isIpAddr text = true := by
  simp [isIpAddr, notV4, read]

theorem readIpv4Addr_of_dotless {text : List Char} (dotless : '.' ∉ text) :
    readIpv4Addr text = none := by
  rw [Option.eq_none_iff_forall_ne_some]
  intro rest read
  exact dotless (dot_of_readIpv4Addr read)

theorem isIpAddr_v4 (address : Ipv4Addr) : isIpAddr address.text = true := by
  have read := readIpv4Addr_text address [] (by intro character head; cases head)
  rw [List.append_nil] at read
  simp [isIpAddr, read]

theorem isIpAddr_full {segments : List (Fin 65536)} (eight : segments.length = 8) :
    isIpAddr (fmtSubslice segments) = true := by
  have dotless := dot_not_mem_fmtSubslice segments
  have groups := readGroups_segments 8 8 0 segments [] eight.le
    (.inl rfl) (by rw [← fmtSubslice_eq, List.append_nil]; exact dotless)
  rw [← fmtSubslice_eq, List.append_nil] at groups
  apply isIpAddr_of_readIpv6Addr (readIpv4Addr_of_dotless dotless)
  simp [readIpv6Addr, groups, eight]

theorem isIpAddr_compressed {front back : List (Fin 65536)}
    (short : front.length + back.length ≤ 6) :
    isIpAddr (fmtSubslice front ++ ':' :: ':' :: fmtSubslice back) = true := by
  have frontDotless := dot_not_mem_fmtSubslice front
  have backDotless := dot_not_mem_fmtSubslice back
  have dotless : '.' ∉ fmtSubslice front ++ ':' :: ':' :: fmtSubslice back := by
    simp [frontDotless, backDotless]
  have head := readGroups_segments 8 8 0 front (':' :: ':' :: fmtSubslice back) (by omega)
    (.inr ⟨_, rfl⟩) (by rw [← fmtSubslice_eq]; exact dotless)
  rw [← fmtSubslice_eq, Nat.zero_add] at head
  have tail := readGroups_segments (8 - (front.length + 1)) (8 - (front.length + 1)) 0 back []
    (by omega) (.inl rfl) (by rw [← fmtSubslice_eq, List.append_nil]; exact backDotless)
  rw [← fmtSubslice_eq, List.append_nil] at tail
  apply isIpAddr_of_readIpv6Addr (readIpv4Addr_of_dotless dotless)
  have notAll : front.length ≠ 8 := by omega
  simp only [readIpv6Addr, head, if_neg notAll, Bool.false_eq_true, if_false, tail]

theorem isIpAddr_mapped (address : Ipv4Addr) :
    isIpAddr ("::ffff:".toList ++ address.text) = true := by
  have embedded : readIpv4Addr address.text = some [] := by
    have read := readIpv4Addr_text address [] (by intro character head; cases head)
    rwa [List.append_nil] at read
  have shape : "::ffff:".toList ++ address.text =
      ':' :: ':' :: 'f' :: 'f' :: 'f' :: 'f' :: ':' :: address.text := rfl
  have noOctet : readIpv4Addr ('f' :: 'f' :: 'f' :: 'f' :: ':' :: address.text) = none := rfl
  have group : readNumber 16 4 65536 true ('f' :: 'f' :: 'f' :: 'f' :: ':' :: address.text) =
      some (':' :: address.text) :=
    readSegment 65535 (by intro character head; cases head; decide)
  have notV4 : readIpv4Addr ("::ffff:".toList ++ address.text) = none := rfl
  apply isIpAddr_of_readIpv6Addr notV4
  have nothing : readGroups 8 8 0 ("::ffff:".toList ++ address.text) =
      (0, false, "::ffff:".toList ++ address.text) := rfl
  have tail : readGroups 7 7 0 ('f' :: 'f' :: 'f' :: 'f' :: ':' :: address.text) =
      (3, true, []) := by
    simp [readGroups, readSeparator, noOctet, group, embedded]
  rw [readIpv6Addr, nothing, shape]
  simp [tail]

theorem isIpAddr_v6 (address : Ipv6Addr) : isIpAddr address.text = true := by
  unfold Ipv6Addr.text
  cases mapped : address.toIpv4Mapped with
  | some ipv4 => exact isIpAddr_mapped ipv4
  | none =>
      have bounds := zeroesFrom_bounds address.segments 0 {} {} (Nat.le_refl _)
        (fun nonempty => absurd rfl nonempty)
      rw [Nat.zero_add, address.eight] at bounds
      simp only
      split
      · apply isIpAddr_compressed
        rw [List.length_take, List.length_drop, address.eight]
        omega
      · exact isIpAddr_full address.eight

end SystemPilot.Telemetry
