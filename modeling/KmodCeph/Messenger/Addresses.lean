import KmodCeph.Basic
import KmodCeph.Lib.Loop
import Mathlib.Data.FinEnum
import Mathlib.Data.List.TakeWhile

namespace KmodCeph.Messenger

open Lib List Nat Option

def esrch : Int := 3

def cephMonPort : Nat := 6789

inductive AddressFamily where
  | inet
  | inet6
deriving DecidableEq

structure SockaddrStorage where
  family : AddressFamily
  addr : List UInt8
  port : Nat
deriving DecidableEq

/-- What reads names: an address in front of a text and the text behind it, up to a delimiter
if there is one. `dns_query` is only there if the module was built for it. -/
structure NameService where
  in4Pton : List UInt8 → Option UInt8 → Option (List UInt8 × List UInt8)
  in6Pton : List UInt8 → Option UInt8 → Option (List UInt8 × List UInt8)
  dnsQuery : Option (List UInt8 → Option (List UInt8))

inductive ParseStop where
  | outside
  | failed (ret : Int)
deriving DecidableEq

def SockaddrStorage.addrSetPort (ss : SockaddrStorage) (p : Int) : SockaddrStorage := { ss with port := (p % 2 ^ 16).toNat }

section

variable (service : NameService)

def cephPton (text : List UInt8) (delim : Option UInt8) : Except Int (SockaddrStorage × List UInt8) :=
  match service.in4Pton text delim with
  | some (addr, ipend) => .ok (⟨.inet, addr, 0⟩, ipend)
  | none =>
    match service.in6Pton text delim with
    | some (addr, ipend) => .ok (⟨.inet6, addr, 0⟩, ipend)
    | none => .error (-einval)

def cephDnsResolveName (name : List UInt8) (delim : UInt8) : Except Int (SockaddrStorage × List UInt8) :=
  match service.dnsQuery with
  | none => .error (-einval)
  | some query =>
    let host := name.takeWhile fun letter => letter ≠ delim ∧ letter ≠ 58
    if host = [] then .error (-einval)
    else
      match query host with
      | none => .error (-esrch)
      | some ip =>
        if ip = [] then .error (-esrch)
        else (cephPton service ip none).map fun found => (found.1, name.drop host.length)

def cephParseServerName (name : List UInt8) (delim : UInt8) : Except Int (SockaddrStorage × List UInt8) :=
  match cephPton service name (some delim) with
  | .ok found => .ok found
  | .error _ => cephDnsResolveName service name delim

def isDigit (letter : UInt8) : Bool := 48 ≤ letter ∧ letter ≤ 57

def readDigits (port : Int) : List UInt8 → Int × List UInt8
  | [] => (port, [])
  | letter :: text =>
    if isDigit letter then readDigits (Int.bmod (port * 10 + (letter.toNat - 48 : Nat)) (2 ^ 32)) text
    else (port, letter :: text)

def parsePort (text : List UInt8) : Except ParseStop (Int × List UInt8) :=
  match text with
  | [] => .ok (cephMonPort, [])
  | letter :: rest =>
    if letter = 58 then
      let (port, after) := readDigits 0 rest
      if port = 0 then .ok (cephMonPort, after)
      else if port > 65535 then .error (.failed (-einval))
      else .ok (port, after)
    else .ok (cephMonPort, letter :: rest)

def closeBracket (delim : UInt8) (text : List UInt8) : Except ParseStop (List UInt8) :=
  if delim = 93 then
    match text with
    | [] => .error .outside
    | letter :: rest => if letter ≠ 93 then .error (.failed (-einval)) else .ok rest
  else .ok text

/-- One address of the list, from the start of the loop of `ceph_parse_ips` to `addr_set_port`. -/
def parseAddress (text : List UInt8) : Except ParseStop (SockaddrStorage × List UInt8) :=
  match text with
  | [] => .error .outside
  | letter :: rest =>
    let (delim, name) : UInt8 × List UInt8 := if letter = 91 then (93, rest) else (44, letter :: rest)
    match cephParseServerName service name delim with
    | .error ret => .error (.failed ret)
    | .ok (ss, ipend) => do
      let ipend ← closeBracket delim ipend
      let (port, after) ← parsePort ipend
      pure (ss.addrSetPort port, after)

def parseSlots : Nat → List UInt8 → List SockaddrStorage → Except ParseStop (List SockaddrStorage × Nat)
  | 0, text, addr => if text ≠ [] then .error (.failed (-einval)) else .ok (addr, addr.length + 1)
  | slots + 1, text, addr => do
    let (ss, after) ← parseAddress service text
    match after with
    | [] => .ok (addr ++ [ss], addr.length + 1)
    | letter :: rest =>
      if letter ≠ 44 then .error (.failed (-einval)) else parseSlots slots rest (addr ++ [ss])

def cephParseIps (text : List UInt8) (maxCount : Nat) : Except ParseStop (List SockaddrStorage × Nat) :=
  parseSlots service maxCount text []

end

/-- `in4_pton` and `in6_pton` recognise an address that ends at the delimiter, a colon or the end of the text. -/
structure Recognises (pton : List UInt8 → Option UInt8 → Option (List UInt8 × List UInt8)) : Prop where
  ends : ∀ text delim addr rest, pton text delim = some (addr, rest) →
    ∃ name, text = name ++ rest ∧ name ≠ [] ∧ (∀ letter ∈ delim, letter ∉ name) ∧
      (rest = [] ∨ rest.head? = delim ∨ rest.head? = some 58)

/-- An entry of a list: a name, in brackets or not, perhaps with a port, and the address it names. -/
structure IpEntry where
  bracketed : Bool
  name : List UInt8
  digits : Option (List UInt8)
  ss : SockaddrStorage

def decimal (value : Nat) (digits : List UInt8) : Nat :=
  digits.foldl (fun value digit => value * 10 + (digit.toNat - 48)) value

namespace IpEntry

def delim (entry : IpEntry) : UInt8 := if entry.bracketed then 93 else 44

def tail (entry : IpEntry) : List UInt8 :=
  (if entry.bracketed then [93] else []) ++ entry.digits.elim [] (58 :: ·)

def text (entry : IpEntry) : List UInt8 := (if entry.bracketed then [91] else []) ++ (entry.name ++ entry.tail)

def value (entry : IpEntry) : Nat := decimal 0 (entry.digits.getD [])

def port (entry : IpEntry) : Nat := if entry.value = 0 then cephMonPort else entry.value

def intValue (entry : IpEntry) : Int := Int.bmod entry.value (2 ^ 32)

def Taken (entry : IpEntry) : Prop := entry.intValue ≤ 65535

/-- An entry of a list, up to the comma or the end behind it. -/
structure Stands (service : NameService) (entry : IpEntry) (after : List UInt8) : Prop where
  named : cephParseServerName service (entry.name ++ (entry.tail ++ after)) entry.delim = .ok (entry.ss, entry.tail ++ after)
  plain : entry.bracketed = false → entry.name.head? ≠ some 91
  digits : ∀ digits ∈ entry.digits, ∀ digit ∈ digits, isDigit digit
  ends : after = [] ∨ after.head? = some 44

end IpEntry

/-- A text begins with these entries, each with a comma behind it. -/
inductive Begins (service : NameService) : List UInt8 → List IpEntry → List UInt8 → Prop where
  | done (rest : List UInt8) : Begins service rest [] rest
  | entry {entry : IpEntry} {text rest : List UInt8} {entries : List IpEntry} (stands : entry.Stands service (44 :: text))
      (begins : Begins service text entries rest) : Begins service (entry.text ++ 44 :: text) (entry :: entries) rest

/-- A text is a list of these entries and one more. -/
def Lists (service : NameService) (text : List UInt8) (entries : List IpEntry) (last : IpEntry) : Prop :=
  Begins service text entries last.text ∧ last.Stands service []

/-- No entry follows, or one with a port that is none. -/
def Misses (service : NameService) (rest : List UInt8) : Prop :=
  rest = [] ∨ rest.head? = some 44 ∨
    ∃ (entry : IpEntry) (after : List UInt8), rest = entry.text ++ after ∧ entry.Stands service after ∧ 65535 < entry.value

/-- `ceph_parse_ips` takes the lists of addresses, and nothing else. -/
structure ParsesLists (service : NameService) (maxCount : Nat) (text : List UInt8) : Prop where
  inside : cephParseIps service text maxCount ≠ .error .outside
  accepted : ∀ addr count, cephParseIps service text maxCount = .ok (addr, count) →
    ∃ entries last, Lists service text entries last ∧ (entries ++ [last]).length ≤ maxCount ∧
      (∀ entry ∈ entries ++ [last], entry.value ≤ 65535) ∧
      addr = (entries ++ [last]).map (fun entry => { entry.ss with port := entry.port }) ∧
      count = (entries ++ [last]).length
  rejected : ∀ entries rest, Begins service text entries rest → Misses service rest →
    ∀ result, cephParseIps service text maxCount ≠ .ok result

/-- The texts that the code parses as lists. -/
structure Parsable (service : NameService) (maxCount : Nat) (text : List UInt8) : Prop where
  missing : ∀ entries, Begins service text entries [] → (∀ entry ∈ entries, entry.Taken) → maxCount < entries.length
  closed : ∀ entries name ss, Begins service text entries (91 :: name) → (∀ entry ∈ entries, entry.Taken) →
    cephParseServerName service name 93 = .ok (ss, []) → maxCount ≤ entries.length
  ports : ∀ entries last, Lists service text entries last → (∀ entry ∈ entries ++ [last], entry.Taken) →
    (entries ++ [last]).length ≤ maxCount → ∀ entry ∈ entries ++ [last], entry.value ≤ 65535

theorem error_of_bind {ε α β : Type} {first : Except ε α} {next : α → Except ε β} {stop : ε}
    (ran : (first >>= next) = .error stop) : first = .error stop ∨ ∃ value, first = .ok value ∧ next value = .error stop := by
  cases first with
  | error fault =>
    cases ran
    exact .inl rfl
  | ok value => exact .inr ⟨value, rfl, ran⟩

section

variable {service : NameService} {text rest after : List UInt8} {delim : UInt8} {ss : SockaddrStorage}

theorem cephPton_name (in4 : Recognises service.in4Pton) (in6 : Recognises service.in6Pton)
    (found : cephPton service text (some delim) = .ok (ss, rest)) :
    ∃ name, text = name ++ rest ∧ name ≠ [] ∧ delim ∉ name := by
  unfold cephPton at found
  split at found
  · rename_i addr ipend named
    obtain ⟨name, split, some, free, -⟩ := in4.ends _ _ _ _ named
    obtain ⟨-, rfl⟩ := Prod.mk.inj (Except.ok.inj found)
    exact ⟨name, split, some, free delim rfl⟩
  · split at found
    · rename_i addr ipend named
      obtain ⟨name, split, some, free, -⟩ := in6.ends _ _ _ _ named
      obtain ⟨-, rfl⟩ := Prod.mk.inj (Except.ok.inj found)
      exact ⟨name, split, some, free delim rfl⟩
    · cases found

theorem cephDnsResolveName_name (found : cephDnsResolveName service text delim = .ok (ss, rest)) :
    ∃ name, text = name ++ rest ∧ name ≠ [] ∧ delim ∉ name := by
  unfold cephDnsResolveName at found
  split at found
  · cases found
  · dsimp only at found
    split_ifs at found with empty
    split at found
    · cases found
    · split_ifs at found
      cases pton : cephPton service _ none with
      | error ret =>
        rw [pton] at found
        cases found
      | ok named =>
        rw [pton] at found
        cases found
        refine ⟨text.takeWhile fun letter => letter ≠ delim ∧ letter ≠ 58, ?_, empty, fun member => ?_⟩
        · exact (List.prefix_iff_eq_append.mp (List.takeWhile_prefix _)).symm
        · have other := mem_takeWhile_imp member
          simp at other

theorem cephParseServerName_name (in4 : Recognises service.in4Pton) (in6 : Recognises service.in6Pton)
    (found : cephParseServerName service text delim = .ok (ss, rest)) :
    ∃ name, text = name ++ rest ∧ name ≠ [] ∧ delim ∉ name := by
  unfold cephParseServerName at found
  split at found
  · rename_i named
    cases found
    exact cephPton_name in4 in6 named
  · exact cephDnsResolveName_name found

theorem readDigits_eq (value : Nat) (text : List UInt8) :
    readDigits (Int.bmod value (2 ^ 32)) text =
      (Int.bmod (decimal value (text.takeWhile isDigit)) (2 ^ 32), text.dropWhile isDigit) := by
  induction text generalizing value with
  | nil => rfl
  | cons letter text ih =>
    by_cases digit : isDigit letter
    · have next : Int.bmod (Int.bmod value (2 ^ 32) * 10 + (letter.toNat - 48 : Nat)) (2 ^ 32) =
          Int.bmod ((value * 10 + (letter.toNat - 48) : Nat) : Int) (2 ^ 32) := by
        rw [← Int.bmod_add_bmod, Int.bmod_mul_bmod, Int.bmod_add_bmod, cast_add, cast_mul, cast_ofNat]
      rw [readDigits, if_pos digit, next, ih, takeWhile_cons_of_pos digit, dropWhile_cons_of_pos digit]
      rfl
    · rw [readDigits, if_neg digit, takeWhile_cons_of_neg digit, dropWhile_cons_of_neg digit]
      rfl

theorem digits_split {digits : List UInt8} (all : ∀ digit ∈ digits, isDigit digit)
    (ends : after = [] ∨ after.head? = some 44) :
    (digits ++ after).takeWhile isDigit = digits ∧ (digits ++ after).dropWhile isDigit = after := by
  have stop : after.takeWhile isDigit = [] ∧ after.dropWhile isDigit = after := by
    cases after with
    | nil => exact ⟨rfl, rfl⟩
    | cons letter rest =>
      obtain rfl : letter = 44 := by simpa using ends
      exact ⟨rfl, rfl⟩
  rw [takeWhile_append_of_pos all, dropWhile_append_of_pos all, stop.1, stop.2, List.append_nil]
  exact ⟨rfl, rfl⟩

end

namespace IpEntry

def stored (entry : IpEntry) : SockaddrStorage :=
  entry.ss.addrSetPort (if entry.intValue = 0 then cephMonPort else entry.intValue)

instance (entry : IpEntry) : Decidable entry.Taken := inferInstanceAs (Decidable (_ ≤ _))

section

variable {service : NameService} {entry : IpEntry} {text after : List UInt8} {ss : SockaddrStorage}

theorem parsePort_eq (digits : ∀ digits ∈ entry.digits, ∀ digit ∈ digits, isDigit digit)
    (ends : after = [] ∨ after.head? = some 44) :
    parsePort (entry.digits.elim [] (58 :: ·) ++ after) =
      if entry.Taken then .ok (if entry.intValue = 0 then cephMonPort else entry.intValue, after)
      else .error (.failed (-einval)) := by
  cases written : entry.digits with
  | none =>
    have zero : entry.intValue = 0 := by
      unfold intValue value
      simp only [written, getD_none, decimal, foldl_nil, cast_zero, Int.zero_bmod]
    have taken : entry.Taken := by
      rw [Taken, zero]
      decide
    rw [if_pos taken, if_pos zero]
    cases after with
    | nil => rfl
    | cons letter rest =>
      obtain rfl : letter = 44 := by simpa using ends
      rfl
  | some row =>
    obtain ⟨front, back⟩ := digits_split (digits row written) ends
    have read : readDigits 0 (row ++ after) = (entry.intValue, after) := by
      have start := readDigits_eq 0 (row ++ after)
      rw [front, back, cast_zero, Int.zero_bmod] at start
      unfold intValue value
      simp only [written, getD_some, start]
    simp only [elim_some, cons_append, parsePort, if_true, read]
    unfold Taken
    split_ifs
    all_goals first | rfl | omega

theorem Stands.name_spec (in4 : Recognises service.in4Pton) (in6 : Recognises service.in6Pton)
    (stands : entry.Stands service after) : entry.name ≠ [] ∧ entry.delim ∉ entry.name := by
  obtain ⟨name, split, some, free⟩ := cephParseServerName_name in4 in6 stands.named
  rw [append_cancel_right split]
  exact ⟨some, free⟩

theorem parseAddress_opened {bracketed : Bool} {name : List UInt8} (plain : bracketed = false → name.head? ≠ some 91)
    (nonempty : (if bracketed then [91] else []) ++ name ≠ []) :
    parseAddress service ((if bracketed then [91] else []) ++ name) =
      match cephParseServerName service name (if bracketed then 93 else 44) with
      | .error ret => .error (.failed ret)
      | .ok (ss, ipend) => (do
          let ipend ← closeBracket (if bracketed then 93 else 44) ipend
          let (port, after) ← parsePort ipend
          pure (ss.addrSetPort port, after)) := by
  cases bracketed with
  | true => rfl
  | false =>
    cases name with
    | nil => exact absurd rfl nonempty
    | cons letter rest =>
      have other : letter ≠ 91 := fun bracket => plain rfl (by rw [bracket, head?_cons])
      simp only [Bool.false_eq_true, if_false, nil_append, parseAddress, if_neg other]

theorem exists_opening (nonempty : text ≠ []) :
    ∃ (bracketed : Bool) (name : List UInt8), text = (if bracketed then [91] else []) ++ name ∧
      (bracketed = false → name.head? ≠ some 91) := by
  by_cases bracket : text.head? = some 91
  · obtain ⟨rest, rfl⟩ := List.head?_eq_some_iff.mp bracket
    exact ⟨true, rest, rfl, fun none => by cases none⟩
  · exact ⟨false, text, rfl, fun _ => bracket⟩

theorem readDigits_split (text : List UInt8) : ∃ port, readDigits 0 text = (port, text.dropWhile isDigit) := by
  have start := readDigits_eq 0 text
  rw [cast_zero, Int.zero_bmod] at start
  exact ⟨_, start⟩

theorem exists_of_parsePort {port : Int} (parsed : parsePort text = .ok (port, after)) :
    ∃ digits : Option (List UInt8), text = digits.elim [] (58 :: ·) ++ after ∧ ∀ row ∈ digits, ∀ digit ∈ row, isDigit digit := by
  unfold parsePort at parsed
  split at parsed
  · cases parsed
    exact ⟨none, rfl, by simp⟩
  · rename_i letter rest
    by_cases colon : letter = 58
    · obtain ⟨read, split⟩ := readDigits_split rest
      simp only [colon, if_true, split] at parsed
      have behind : after = rest.dropWhile isDigit := by
        split_ifs at parsed
        all_goals
          cases parsed
          rfl
      refine ⟨some (rest.takeWhile isDigit), ?_, ?_⟩
      · rw [behind, colon, elim_some, cons_append, takeWhile_append_dropWhile]
      · rintro row ⟨⟩ digit member
        exact mem_takeWhile_imp member
    · rw [if_neg colon] at parsed
      cases parsed
      exact ⟨none, rfl, by simp⟩

/-- An entry of a list is taken or refused for its port. -/
theorem Stands.parseAddress_eq (in4 : Recognises service.in4Pton) (in6 : Recognises service.in6Pton)
    (stands : entry.Stands service after) :
    parseAddress service (entry.text ++ after) =
      if entry.Taken then .ok (entry.stored, after) else .error (.failed (-einval)) := by
  have port := parsePort_eq stands.digits stands.ends
  obtain ⟨some, free⟩ := stands.name_spec in4 in6
  have named := stands.named
  have closed : closeBracket entry.delim (entry.tail ++ after) = .ok (entry.digits.elim [] (58 :: ·) ++ after) := by
    cases bracketed : entry.bracketed with
    | true => simp [closeBracket, delim, tail, bracketed]
    | false => simp [closeBracket, delim, tail, bracketed]
  have plain : entry.bracketed = false → (entry.name ++ (entry.tail ++ after)).head? ≠ Option.some 91 := by
    rw [head?_append_of_ne_nil _ some]
    exact stands.plain
  have opened := @parseAddress_opened service _ _ plain (by simp [some])
  rw [delim] at named closed
  simp only [named, closed] at opened
  rw [text, append_assoc, append_assoc, opened]
  by_cases taken : entry.Taken
  · rw [if_pos taken] at port ⊢
    simp only [bind, Except.bind, port, stored, pure, Except.pure]
  · rw [if_neg taken] at port ⊢
    simp only [bind, Except.bind, port]

theorem closeBracket_spec {delim : UInt8} {ipend behind : List UInt8} (closed : closeBracket delim ipend = .ok behind) :
    ipend = (if delim = 93 then [93] else []) ++ behind := by
  unfold closeBracket at closed
  split_ifs at closed ⊢ with bracket
  · split at closed
    · cases closed
    · rename_i letter rest
      split_ifs at closed with other
      cases closed
      rw [not_not.mp other]
      rfl
  · cases closed
    rfl

theorem closeBracket_outside {delim : UInt8} {ipend : List UInt8} (closed : closeBracket delim ipend = .error .outside) :
    delim = 93 ∧ ipend = [] := by
  unfold closeBracket at closed
  split_ifs at closed with bracket
  split at closed
  · exact ⟨bracket, rfl⟩
  · split_ifs at closed
    cases closed

theorem parsePort_inside : parsePort text ≠ .error .outside := by
  unfold parsePort
  split
  · simp
  · dsimp only
    split_ifs
    all_goals simp

theorem exists_of_parseAddress (in4 : Recognises service.in4Pton) (in6 : Recognises service.in6Pton)
    (parsed : parseAddress service text = .ok (ss, after)) (ends : after = [] ∨ after.head? = some 44) :
    ∃ entry : IpEntry, text = entry.text ++ after ∧ entry.Stands service after := by
  have nonempty : text ≠ [] := fun none => by
    rw [none] at parsed
    cases parsed
  obtain ⟨bracketed, name, rfl, plain⟩ := exists_opening nonempty
  rw [parseAddress_opened plain nonempty] at parsed
  split at parsed
  · cases parsed
  · rename_i found ipend named
    obtain ⟨behind, closed, parsed⟩ := ok_of_bind parsed
    obtain ⟨⟨port, after'⟩, read, parsed⟩ := ok_of_bind parsed
    obtain ⟨-, rfl⟩ := Prod.mk.inj (Except.ok.inj parsed)
    obtain ⟨digits, cut, all⟩ := exists_of_parsePort read
    obtain ⟨called, split, some, free⟩ := cephParseServerName_name in4 in6 named
    have whole : ipend = (IpEntry.mk bracketed called digits found).tail ++ after' := by
      rw [closeBracket_spec closed, cut, tail]
      cases bracketed with
      | true => simp
      | false => simp
    rw [split, whole] at named
    refine ⟨⟨bracketed, called, digits, found⟩, ?_, named, fun free => ?_, all, ends⟩
    · rw [split, whole, text, append_assoc, append_assoc]
    · have first := plain free
      rwa [split, head?_append_of_ne_nil _ some] at first

theorem parseAddress_outside (parsed : parseAddress service text = .error .outside) :
    text = [] ∨ ∃ name ss, text = 91 :: name ∧ cephParseServerName service name 93 = .ok (ss, []) := by
  by_cases nonempty : text ≠ []
  · right
    obtain ⟨bracketed, name, rfl, plain⟩ := exists_opening nonempty
    rw [parseAddress_opened plain nonempty] at parsed
    split at parsed
    · cases parsed
    · rename_i found ipend named
      rcases error_of_bind parsed with closed | ⟨behind, -, parsed⟩
      · obtain ⟨bracket, rfl⟩ := closeBracket_outside closed
        cases bracketed with
        | true => exact ⟨name, found, rfl, named⟩
        | false => cases bracket
      · rcases error_of_bind parsed with read | ⟨port, -, parsed⟩
        · exact absurd read parsePort_inside
        · cases parsed
  · exact .inl (not_not.mp nonempty)

section

variable (in4 : Recognises service.in4Pton) (in6 : Recognises service.in6Pton)
include in4 in6

theorem taken_of_parseAddress
    (parsed : parseAddress service text = .ok (ss, after)) (ends : after = [] ∨ after.head? = some 44) :
    ∃ entry : IpEntry, text = entry.text ++ after ∧ entry.Stands service after ∧ entry.Taken ∧ ss = entry.stored := by
  obtain ⟨entry, rfl, stands⟩ := exists_of_parseAddress in4 in6 parsed ends
  rw [stands.parseAddress_eq in4 in6] at parsed
  by_cases taken : entry.Taken
  · rw [if_pos taken] at parsed
    exact ⟨entry, rfl, stands, taken, (Prod.mk.inj (Except.ok.inj parsed)).1.symm⟩
  · rw [if_neg taken] at parsed
    cases parsed

theorem Stands.text_ne_nil (stands : entry.Stands service after) : entry.text ≠ [] := by
  have some := (stands.name_spec in4 in6).1
  simp [text, some]

end

end

end IpEntry

section

variable {service : NameService} {entry last : IpEntry} {entries : List IpEntry} {text rest : List UInt8}
variable {addr stored : List SockaddrStorage} {slots count : Nat}

section

variable (in4 : Recognises service.in4Pton) (in6 : Recognises service.in6Pton)
include in4 in6

theorem parseSlots_entry (stands : entry.Stands service (44 :: text)) :
    parseSlots service (slots + 1) (entry.text ++ 44 :: text) addr =
      if entry.Taken then parseSlots service slots text (addr ++ [entry.stored]) else .error (.failed (-einval)) := by
  rw [parseSlots, stands.parseAddress_eq in4 in6]
  by_cases taken : entry.Taken
  · rw [if_pos taken, if_pos taken]
    rfl
  · rw [if_neg taken, if_neg taken]
    rfl

theorem parseSlots_last (stands : last.Stands service []) : parseSlots service (slots + 1) last.text addr =
      if last.Taken then .ok (addr ++ [last.stored], addr.length + 1) else .error (.failed (-einval)) := by
  have parsed := stands.parseAddress_eq in4 in6
  rw [List.append_nil] at parsed
  rw [parseSlots, parsed]
  by_cases taken : last.Taken
  · rw [if_pos taken, if_pos taken]
    rfl
  · rw [if_neg taken, if_neg taken]
    rfl

end

theorem parseSlots_zero (nonempty : text ≠ []) : parseSlots service 0 text addr = .error (.failed (-einval)) := by
  rw [parseSlots, if_pos nonempty]

section

variable (in4 : Recognises service.in4Pton) (in6 : Recognises service.in6Pton)
include in4 in6

theorem Begins.parseSlots_eq (begins : Begins service text entries rest) (taken : ∀ entry ∈ entries, entry.Taken) :
    parseSlots service (entries.length + slots) text addr =
      parseSlots service slots rest (addr ++ entries.map IpEntry.stored) := by
  induction begins generalizing addr with
  | done rest => simp
  | @entry entry text rest entries stands begins ih =>
    have next := @ih (addr ++ [entry.stored]) fun other member => taken other (mem_cons_of_mem _ member)
    rw [length_cons, Nat.add_right_comm, parseSlots_entry in4 in6 stands, if_pos (taken entry mem_cons_self), next,
      append_assoc]
    rfl

theorem Begins.accepted {result : List SockaddrStorage × Nat} (begins : Begins service text entries rest)
    (parsed : parseSlots service slots text addr = .ok result) :
    (∀ entry ∈ entries, entry.Taken) ∧ ∃ left, slots = entries.length + left ∧
      parseSlots service left rest (addr ++ entries.map IpEntry.stored) = .ok result := by
  induction begins generalizing addr slots with
  | done rest => exact ⟨by simp, slots, by simp, by simpa using parsed⟩
  | @entry entry text rest entries stands begins ih =>
    cases slots with
    | zero =>
      rw [parseSlots_zero (by simp)] at parsed
      cases parsed
    | succ slots =>
      rw [parseSlots_entry in4 in6 stands] at parsed
      by_cases first : entry.Taken
      · rw [if_pos first] at parsed
        obtain ⟨others, left, rfl, ended⟩ := ih parsed
        refine ⟨List.forall_mem_cons.mpr ⟨first, others⟩, left, by rw [length_cons]; omega, ?_⟩
        rw [append_assoc] at ended
        exact ended
      · rw [if_neg first] at parsed
        cases parsed

/-- A text that the code accepts is a list, or ends behind the comma of the last slot. -/
theorem parseSlots_accepted (parsed : parseSlots service slots text addr = .ok (stored, count)) :
    (∃ entries, Begins service text entries [] ∧ (∀ entry ∈ entries, entry.Taken) ∧ entries.length = slots) ∨
      ∃ entries last, Lists service text entries last ∧ (∀ entry ∈ entries ++ [last], entry.Taken) ∧
        (entries ++ [last]).length ≤ slots ∧ stored = addr ++ (entries ++ [last]).map IpEntry.stored ∧
        count = addr.length + (entries ++ [last]).length := by
  induction slots generalizing text addr with
  | zero =>
    by_cases nonempty : text ≠ []
    · rw [parseSlots_zero nonempty] at parsed
      cases parsed
    · rw [not_not.mp nonempty]
      exact .inl ⟨[], .done [], by simp, rfl⟩
  | succ slots ih =>
    obtain ⟨⟨ss, after⟩, address, parsed⟩ := ok_of_bind parsed
    cases after with
    | nil =>
      obtain ⟨last, rfl, stands, taken, rfl⟩ := IpEntry.taken_of_parseAddress in4 in6 address (.inl rfl)
      obtain ⟨rfl, rfl⟩ := Prod.mk.inj (Except.ok.inj parsed)
      rw [List.append_nil]
      exact .inr ⟨[], last, ⟨.done _, stands⟩, by simpa using taken, by simp, rfl, rfl⟩
    | cons letter behind =>
      dsimp only at parsed
      split_ifs at parsed with other
      obtain rfl := not_not.mp other
      obtain ⟨entry, rfl, stands, taken, rfl⟩ := IpEntry.taken_of_parseAddress in4 in6 address (.inr rfl)
      rcases ih parsed with ⟨entries, begins, others, filled⟩ | ⟨entries, last, listed, others, fits, rfl, rfl⟩
      · exact .inl ⟨entry :: entries, .entry stands begins, List.forall_mem_cons.mpr ⟨taken, others⟩,
          by rw [length_cons, filled]⟩
      · refine .inr ⟨entry :: entries, last, ⟨.entry stands listed.1, listed.2⟩, List.forall_mem_cons.mpr ⟨taken, others⟩,
          by simpa using fits, by simp, by simp; omega⟩

/-- Where the code reads behind the end, a text ends behind a comma or in an open bracket. -/
theorem parseSlots_outside (parsed : parseSlots service slots text addr = .error .outside) :
    ∃ entries rest, Begins service text entries rest ∧ (∀ entry ∈ entries, entry.Taken) ∧ entries.length < slots ∧
      (rest = [] ∨ ∃ name ss, rest = 91 :: name ∧ cephParseServerName service name 93 = .ok (ss, [])) := by
  induction slots generalizing text addr with
  | zero =>
    rw [parseSlots] at parsed
    split_ifs at parsed
    cases parsed
  | succ slots ih =>
    rcases error_of_bind parsed with outside | ⟨⟨ss, after⟩, address, parsed⟩
    · exact ⟨[], text, .done _, by simp, by simp, IpEntry.parseAddress_outside outside⟩
    · cases after with
      | nil => cases parsed
      | cons letter behind =>
        dsimp only at parsed
        split_ifs at parsed with other
        · cases parsed
        · obtain rfl := not_not.mp other
          obtain ⟨entry, rfl, stands, taken, rfl⟩ := IpEntry.taken_of_parseAddress in4 in6 address (.inr rfl)
          obtain ⟨entries, rest, begins, others, few, ends⟩ := ih parsed
          exact ⟨entry :: entries, rest, .entry stands begins, List.forall_mem_cons.mpr ⟨taken, others⟩,
            by simpa using few, ends⟩

end

theorem IpEntry.stored_eq (port : entry.value ≤ 65535) : entry.stored = { entry.ss with port := entry.port } := by
  have same : entry.intValue = entry.value := Int.bmod_eq_of_le (by omega) (by omega)
  have kept : ((if entry.intValue = 0 then (cephMonPort : Int) else entry.intValue) % 2 ^ 16).toNat = entry.port := by
    rw [same, IpEntry.port, cephMonPort]
    split_ifs with zero none none
    all_goals lia
  rw [IpEntry.stored, SockaddrStorage.addrSetPort, kept]

theorem Begins.trans {middle : List UInt8} {more : List IpEntry} (begins : Begins service text entries middle)
    (continues : Begins service middle more rest) : Begins service text (entries ++ more) rest := by
  induction begins with
  | done middle => exact continues
  | entry stands begins ih => exact .entry stands (ih continues)

theorem Lists.split (listed : Lists service text entries last) (member : entry ∈ entries ++ [last]) :
    ∃ front after, Begins service text front (entry.text ++ after) ∧ entry.Stands service after := by
  obtain ⟨begins, stands⟩ := listed
  generalize ended : last.text = rest at begins
  induction begins with
  | done rest =>
    obtain rfl := List.mem_singleton.mp member
    refine ⟨[], [], ?_, stands⟩
    rw [List.append_nil, ended]
    exact .done _
  | @entry other text rest entries first begins ih =>
    rcases List.mem_cons.mp member with rfl | later
    · exact ⟨[], 44 :: text, .done _, first⟩
    · obtain ⟨front, after, continues, found⟩ := ih later ended
      exact ⟨other :: front, after, .entry first continues, found⟩

section

variable (in4 : Recognises service.in4Pton) (in6 : Recognises service.in6Pton)
include in4 in6

theorem IpEntry.Stands.head_ne {after : List UInt8}
    (stands : entry.Stands service after) : entry.text.head? ≠ some 44 := by
  obtain ⟨nonempty, free⟩ := stands.name_spec in4 in6
  cases bracketed : entry.bracketed with
  | true => simp [IpEntry.text, bracketed]
  | false =>
    obtain ⟨letter, more, named⟩ := exists_cons_of_ne_nil nonempty
    have other : letter ≠ 44 := fun comma => free (by simp [named, comma, IpEntry.delim, bracketed])
    simp [IpEntry.text, bracketed, named, other]

theorem Begins.head_ne
    (begins : Begins service text entries rest) (behind : rest.head? ≠ some 44) : text.head? ≠ some 44 := by
  cases begins with
  | done => exact behind
  | entry stands begins =>
    rw [head?_append_of_ne_nil _ (stands.text_ne_nil in4 in6)]
    exact stands.head_ne in4 in6

theorem head_ne_of_accepted
    (parsed : parseSlots service slots text addr = .ok (stored, count)) : text.head? ≠ some 44 := by
  rcases parseSlots_accepted in4 in6 parsed with ⟨entries, begins, -, -⟩ | ⟨entries, last, listed, -, -, -, -⟩
  · exact begins.head_ne in4 in6 (by simp)
  · exact listed.1.head_ne in4 in6 (listed.2.head_ne in4 in6)

/-- An accepted text has no port that is none, if no list ends with a comma and no list has one. -/
theorem Parsable.value_le {maxCount : Nat} {after : List UInt8} (parsable : Parsable service maxCount text)
    (begins : Begins service text entries (entry.text ++ after)) (stands : entry.Stands service after)
    (parsed : parseSlots service maxCount text [] = .ok (stored, count)) : entry.value ≤ 65535 := by
  obtain ⟨taken, left, filled, ended⟩ := begins.accepted in4 in6 parsed
  rcases after with _ | ⟨letter, behind⟩
  · rw [List.append_nil] at begins ended
    cases left with
    | zero =>
      rw [parseSlots_zero (stands.text_ne_nil in4 in6)] at ended
      cases ended
    | succ left =>
      rw [parseSlots_last in4 in6 stands] at ended
      by_cases last : entry.Taken
      · refine parsable.ports entries entry ⟨begins, stands⟩ ?_ (by simp; omega) entry (by simp)
        simpa [or_imp, forall_and] using ⟨taken, last⟩
      · rw [if_neg last] at ended
        cases ended
  · obtain rfl : letter = 44 := by simpa using stands.ends
    have whole := begins.trans (.entry stands (.done behind))
    obtain ⟨taken, left, filled, ended⟩ := whole.accepted in4 in6 parsed
    rcases parseSlots_accepted in4 in6 ended with ⟨more, others, takes, full⟩ | ⟨more, last, listed, takes, fits, -, -⟩
    · have missing := parsable.missing _ (whole.trans others) (List.forall_mem_append.mpr ⟨taken, takes⟩)
      rw [length_append] at missing
      lia
    · refine parsable.ports _ last ⟨whole.trans listed.1, listed.2⟩ ?_ ?_ entry (by simp)
      · rw [append_assoc]
        exact List.forall_mem_append.mpr ⟨taken, takes⟩
      · rw [append_assoc, length_append]
        lia

end

end

/-- The code parses a text as a list exactly if no entry is missing behind a comma where it looks for one, no bracket is
left open at the end, and no port passes for another one as an `int`. -/
theorem cephParseIps_lists_iff (service : NameService) (in4 : Recognises service.in4Pton) (in6 : Recognises service.in6Pton)
    (maxCount : Nat) (text : List UInt8) : ParsesLists service maxCount text ↔ Parsable service maxCount text := by
  constructor
  · rintro ⟨inside, accepted, rejected⟩
    refine ⟨fun entries begins taken => ?_, fun entries name ss begins taken named => ?_,
      fun entries last listed taken fits => ?_⟩
    · by_contra few
      obtain ⟨left, filled⟩ := Nat.exists_eq_add_of_le (not_lt.mp few)
      have ran := @Begins.parseSlots_eq _ _ _ _ [] left in4 in6 begins taken
      rw [← filled] at ran
      cases left with
      | zero => exact rejected entries [] begins (.inl rfl) _ ran
      | succ left => exact inside ran
    · by_contra few
      obtain ⟨left, filled⟩ := Nat.exists_eq_add_of_lt (not_le.mp few)
      have ran := @Begins.parseSlots_eq _ _ _ _ [] (left + 1) in4 in6 begins taken
      rw [← Nat.add_assoc, ← filled] at ran
      have open' : parseAddress service (91 :: name) = .error .outside := by
        simp [parseAddress, named, closeBracket, bind, Except.bind]
      rw [parseSlots, open'] at ran
      exact inside ran
    · obtain ⟨left, filled⟩ : ∃ left, maxCount = entries.length + (left + 1) := by
        rw [length_append, length_singleton] at fits
        exact ⟨maxCount - (entries.length + 1), by lia⟩
      have ran := @Begins.parseSlots_eq _ _ _ _ [] (left + 1) in4 in6 listed.1
        fun entry member => taken entry (mem_append_left _ member)
      rw [← filled, parseSlots_last in4 in6 listed.2, if_pos (taken last (by simp))] at ran
      intro entry member
      by_contra large
      obtain ⟨front, after, begins, stands⟩ := listed.split member
      exact rejected front _ begins (.inr (.inr ⟨entry, after, rfl, stands, by omega⟩)) _ ran
  · intro parsable
    refine ⟨fun outside => ?_, fun addr count parsed => ?_, fun entries rest begins misses result parsed => ?_⟩
    · obtain ⟨entries, rest, begins, taken, few, rfl | ⟨name, ss, rfl, named⟩⟩ := parseSlots_outside in4 in6 outside
      · exact absurd (parsable.missing entries begins taken) (by omega)
      · exact absurd (parsable.closed entries name ss begins taken named) (by omega)
    · rcases parseSlots_accepted in4 in6 parsed with ⟨entries, begins, taken, filled⟩ | ⟨entries, last, listed, taken, fits, rfl, rfl⟩
      · exact absurd (parsable.missing entries begins taken) (by omega)
      · have small := parsable.ports entries last listed taken fits
        refine ⟨entries, last, listed, fits, small, ?_, by simp⟩
        rw [nil_append]
        exact map_congr_left fun entry member => entry.stored_eq (small entry member)
    · obtain ⟨taken, left, filled, ended⟩ := begins.accepted in4 in6 parsed
      rcases misses with rfl | comma | ⟨entry, after, rfl, stands, large⟩
      · exact absurd (parsable.missing entries begins taken) (by omega)
      · exact head_ne_of_accepted in4 in6 ended comma
      · exact absurd (parsable.value_le in4 in6 begins stands parsed) (by omega)

def fixedPton (name addr text : List UInt8) (delim : Option UInt8) : Option (List UInt8 × List UInt8) :=
  let rest := text.drop name.length
  if name ++ rest = text ∧ (∀ letter ∈ delim, letter ∉ name) ∧ (rest = [] ∨ rest.head? = delim ∨ rest.head? = some 58) then
    some (addr, rest)
  else none

theorem fixedPton_recognises {name addr : List UInt8} (some : name ≠ []) : Recognises (fixedPton name addr) := by
  refine ⟨fun text delim addr' rest found => ?_⟩
  simp only [fixedPton] at found
  split_ifs at found with fits
  obtain ⟨split, free, ends⟩ := fits
  obtain ⟨-, rfl⟩ := Prod.mk.inj (Option.some.inj found)
  exact ⟨name, split.symm, some, free, ends⟩

def oneAddress : NameService where
  in4Pton := fixedPton [49, 46, 50, 46, 51, 46, 52] [1, 2, 3, 4]
  in6Pton := fun _ _ => none
  dnsQuery := none

theorem oneAddress_recognises : Recognises oneAddress.in4Pton ∧ Recognises oneAddress.in6Pton :=
  ⟨fixedPton_recognises (by simp), ⟨fun _ _ _ _ none => by cases none⟩⟩

/-- 1.2.3.4:6789 -/
theorem cephParseIps_lists_iff_port :
    ParsesLists oneAddress 1 [49, 46, 50, 46, 51, 46, 52, 58, 54, 55, 56, 57] ↔
      Parsable oneAddress 1 [49, 46, 50, 46, 51, 46, 52, 58, 54, 55, 56, 57] :=
  cephParseIps_lists_iff oneAddress oneAddress_recognises.1 oneAddress_recognises.2 1 _

def wrappedEntry : IpEntry where
  bracketed := false
  name := [49, 46, 50, 46, 51, 46, 52]
  digits := some [52, 50, 57, 52, 57, 54, 55, 50, 57, 55]
  ss := ⟨.inet, [1, 2, 3, 4], 0⟩

theorem cephParseIps_wraps :
    Recognises oneAddress.in4Pton ∧ Recognises oneAddress.in6Pton ∧ ¬ ParsesLists oneAddress 1 wrappedEntry.text := by
  refine ⟨oneAddress_recognises.1, oneAddress_recognises.2, fun parses => ?_⟩
  have stands : wrappedEntry.Stands oneAddress [] :=
    { named := by decide +kernel
      plain := by decide
      digits := by decide +kernel
      ends := .inl rfl }
  have ran : cephParseIps oneAddress wrappedEntry.text 1 = .ok ([⟨.inet, [1, 2, 3, 4], 1⟩], 1) := by decide +kernel
  refine parses.rejected [] _ (.done _) (.inr (.inr ⟨wrappedEntry, [], ?_, stands, by decide +kernel⟩)) _ ran
  rw [List.append_nil]

end KmodCeph.Messenger
