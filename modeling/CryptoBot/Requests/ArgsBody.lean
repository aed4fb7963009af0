/-
# Arguments as a JSON body

Both exchanges take the arguments of a request as a JSON object that is filled from
the hash map of the arguments.  One key holds an array, a value in quotes loses them,
and any other value is taken as it is.  The encoder of Bybit has no branch for the
last case, so such arguments are lost, and it asks an empty value for its first
character.

A body is the object before it is written out: what each key holds.  The library sorts
the keys, so the text depends on nothing else.
-/

import CryptoBot.Math.LastWrite
import CryptoBot.Requests.ArgsQuery

namespace CryptoBot.Requests

open CryptoBot.Math

inductive BodyValue
  | text (value : String)
  | array (value : String)
  deriving DecidableEq, Repr

abbrev JsonBody := String → Option BodyValue

/-- A quote at both ends; a single quote is both. -/
def IsQuoted (value : String) : Prop :=
  value.toList.head? = some '"' ∧ value.toList.getLast? = some '"'

instance (value : String) : Decidable (IsQuoted value) := inferInstanceAs (Decidable (_ ∧ _))

/-- `value.substr(1, value.size() - 2)`. -/
def unquoted (value : String) : String :=
  .ofList ((value.toList.drop 1).take (value.toList.length - 2))

abbrev ArgsBody := ArgsQuery

namespace ArgsBody

/-! ## The encoders -/

def writeBinance (body : JsonBody) (argument : String × String) : JsonBody :=
  let (key, value) := argument
  if key = "params" then Function.update body key (some (.array value))
  else if IsQuoted value then Function.update body key (some (.text (unquoted value)))
  else Function.update body key (some (.text value))

/-- `binance::ArgsBody::Body`. -/
def binanceBody (args : ArgsBody) : JsonBody := args.entries.foldl writeBinance fun _ => none

/-- One argument in the encoder of Bybit; `front` of an empty string is undefined. -/
def writeBybit (body : JsonBody) (argument : String × String) : Option JsonBody :=
  let (key, value) := argument
  if key = "args" then some (Function.update body key (some (.array value)))
  else if value.isEmpty then none
  else if IsQuoted value then some (Function.update body key (some (.text (unquoted value))))
  else some body

/-- `bybit::ArgsBody::Body`. -/
def bybitBody (args : ArgsBody) : Option JsonBody := args.entries.foldlM writeBybit fun _ => none

/-! ## What a body should hold -/

/-- The value of an argument in the body. -/
def encoded (arrayKey key value : String) : BodyValue :=
  if key = arrayKey then .array value
  else if IsQuoted value then .text (unquoted value)
  else .text value

/-- The body has exactly the keys of the arguments, each with its value. -/
def Encodes (arrayKey : String) (args : ArgsBody) (body : JsonBody) : Prop :=
  ∀ key, body key = (args.find key).map (encoded arrayKey key)

/-- The assignments of an encoder that passes over some arguments. -/
def assignments (stored : String → String → Option BodyValue)
    (arguments : List (String × String)) : List (String × Option BodyValue) :=
  arguments.filterMap fun argument =>
    (stored argument.1 argument.2).map fun value => (argument.1, some value)

variable {stored : String → String → Option BodyValue} {args : ArgsBody}

theorem mem_assignments {arguments : List (String × String)} {key : String}
    {value : Option BodyValue} :
    (key, value) ∈ assignments stored arguments ↔
      ∃ argument result, (key, argument) ∈ arguments ∧ stored key argument = some result ∧
        value = some result := by
  simp only [assignments, List.mem_filterMap, Option.map_eq_some_iff, Prod.mk.injEq, Prod.exists]
  constructor
  · rintro ⟨name, argument, hmem, result, hstored, rfl, rfl⟩
    exact ⟨argument, result, hmem, hstored, rfl⟩
  · rintro ⟨argument, result, hmem, hstored, rfl⟩
    exact ⟨key, argument, hmem, result, hstored, rfl, rfl⟩

/-- Each key holds what the encoder stores for its argument. -/
theorem writes_assignments (stored : String → String → Option BodyValue) (args : ArgsBody)
    (key : String) :
    writes (fun _ => none) (assignments stored args.entries) key =
      (args.find key).bind (stored key) := by
  have hvalue : ∀ entry ∈ assignments stored args.entries, entry.1 = key →
      entry.2 = (args.find key).bind (stored key) := by
    rintro ⟨name, value⟩ hmem rfl
    obtain ⟨argument, result, hargument, hstored, rfl⟩ := mem_assignments.mp hmem
    rw [(args.mem_entries_iff).mp hargument, Option.bind_some, hstored]
  by_cases hkey : key ∈ (assignments stored args.entries).map Prod.fst
  · exact writes_apply_of_forall_mem hkey hvalue _
  · rw [writes_apply_of_notMem hkey]
    symm
    rw [Option.bind_eq_none_iff]
    intro argument hfind
    by_contra hstored
    obtain ⟨result, hstored⟩ := Option.ne_none_iff_exists'.mp hstored
    refine hkey (List.mem_map.mpr ⟨(key, some result), ?_, rfl⟩)
    exact mem_assignments.mpr ⟨argument, result, args.mem_entries_iff.mpr hfind, hstored, rfl⟩

theorem foldl_writeBinance (arguments : List (String × String)) (body : JsonBody) :
    arguments.foldl writeBinance body =
      writes body (assignments (fun key value => some (encoded "params" key value)) arguments) := by
  induction arguments generalizing body with
  | nil => rfl
  | cons argument rest ih =>
    obtain ⟨key, value⟩ := argument
    rw [List.foldl_cons, ih]
    simp only [assignments, List.filterMap_cons, Option.map_some, writes_cons, writeBinance,
      encoded]
    congr 1
    split
    · rfl
    · split <;> rfl

/-- The encoder of Binance keeps every argument. -/
theorem encodes_binanceBody (args : ArgsBody) : Encodes "params" args args.binanceBody := by
  intro key
  rw [binanceBody, foldl_writeBinance, writes_assignments, Option.map_eq_bind]
  rfl

/-- What the encoder of Bybit stores for an argument. -/
def storedByBybit (key value : String) : Option BodyValue :=
  if key = "args" ∨ IsQuoted value then some (encoded "args" key value) else none

theorem foldlM_writeBybit {arguments : List (String × String)} {body result : JsonBody}
    (h : arguments.foldlM writeBybit body = some result) :
    result = writes body (assignments storedByBybit arguments) := by
  induction arguments generalizing body with
  | nil =>
    simp only [List.foldlM_nil, Option.pure_def, Option.some.injEq] at h
    exact h.symm
  | cons argument rest ih =>
    obtain ⟨key, value⟩ := argument
    rw [List.foldlM_cons, Option.bind_eq_bind, Option.bind_eq_some_iff] at h
    obtain ⟨next, hnext, hrest⟩ := h
    rw [ih hrest]
    simp only [writeBybit] at hnext
    simp only [assignments, List.filterMap_cons, storedByBybit, encoded]
    split at hnext
    · rename_i hkey
      simp [← Option.some.inj hnext, hkey]
    · rename_i hkey
      split at hnext
      · simp at hnext
      · split at hnext
        · rename_i hquoted
          simp [← Option.some.inj hnext, hkey, hquoted]
        · rename_i hquoted
          simp [← Option.some.inj hnext, hkey, hquoted]

/-- Quoted values are never empty, so nothing undefined happens. -/
theorem exists_foldlM_writeBybit {arguments : List (String × String)}
    (h : ∀ argument ∈ arguments, argument.1 = "args" ∨ IsQuoted argument.2) (body : JsonBody) :
    ∃ result, arguments.foldlM writeBybit body = some result := by
  induction arguments generalizing body with
  | nil => exact ⟨body, rfl⟩
  | cons argument rest ih =>
    obtain ⟨key, value⟩ := argument
    have hnext : ∃ next, writeBybit body (key, value) = some next := by
      rcases h (key, value) List.mem_cons_self with hkey | hquoted
      · simp only at hkey
        exact ⟨_, if_pos hkey⟩
      · have hnonempty : value.isEmpty = false := by
          rw [Bool.eq_false_iff]
          intro hempty
          rw [String.isEmpty_iff] at hempty
          simp [IsQuoted, hempty] at hquoted
        by_cases hkey : key = "args"
        · exact ⟨_, if_pos hkey⟩
        · simp only at hquoted
          simp [writeBybit, hkey, hnonempty, hquoted]
    obtain ⟨next, hnext⟩ := hnext
    obtain ⟨result, hresult⟩ :=
      ih (fun other hother => h other (List.mem_cons_of_mem _ hother)) next
    refine ⟨result, ?_⟩
    rw [List.foldlM_cons, hnext, Option.bind_eq_bind, Option.bind_some, hresult]

/-- The body of Bybit holds what it should exactly when every value outside the array is
quoted. -/
theorem bybitBody_encodes_iff (args : ArgsBody) :
    (∃ body, args.bybitBody = some body ∧ Encodes "args" args body) ↔
      ∀ key value, args.find key = some value → key ≠ "args" → IsQuoted value := by
  constructor
  · rintro ⟨body, hbody, hencodes⟩ key value hfind hkey
    have hvalue := hencodes key
    rw [foldlM_writeBybit hbody, writes_assignments, hfind, Option.bind_some, Option.map_some,
      storedByBybit] at hvalue
    by_contra hquoted
    rw [if_neg (not_or.mpr ⟨hkey, hquoted⟩)] at hvalue
    simp at hvalue
  · intro hquoted
    have hall : ∀ argument ∈ args.entries, argument.1 = "args" ∨ IsQuoted argument.2 := by
      rintro ⟨key, value⟩ hmem
      by_cases hkey : key = "args"
      · exact .inl hkey
      · exact .inr (hquoted key value (args.mem_entries_iff.mp hmem) hkey)
    obtain ⟨body, hbody⟩ := exists_foldlM_writeBybit hall fun _ => none
    refine ⟨body, hbody, fun key => ?_⟩
    rw [foldlM_writeBybit hbody, writes_assignments]
    cases hfind : args.find key with
    | none => rfl
    | some value =>
      have hstored : key = "args" ∨ IsQuoted value :=
        hall (key, value) (args.mem_entries_iff.mpr hfind)
      rw [Option.bind_some, Option.map_some, storedByBybit, if_pos hstored]

/-- `FamilyBookSnapshot::ArgsOrder` of Bybit, with the symbol of the pair as it is. -/
def argsSnapshot (placement : Placement (String × String)) (httpsQueryRequest : String) :
    ArgsBody :=
  UnorderedMap.empty.set placement "symbol" httpsQueryRequest

theorem not_encodes_argsSnapshot :
    ¬ ∃ body, (argsSnapshot .back "BTCUSDT").bybitBody = some body ∧
      Encodes "args" (argsSnapshot .back "BTCUSDT") body := by
  rintro ⟨body, hbody, hencodes⟩
  have hvalue := hencodes "symbol"
  have hfind : (argsSnapshot .back "BTCUSDT").find "symbol" = some "BTCUSDT" := by
    rw [argsSnapshot, UnorderedMap.find_set, if_pos rfl]
  rw [foldlM_writeBybit hbody, writes_assignments, hfind, Option.bind_some, Option.map_some,
    storedByBybit, if_neg (by decide)] at hvalue
  simp at hvalue

end ArgsBody

end CryptoBot.Requests
