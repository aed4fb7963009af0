/-
# Signed queries

The parameters of a request to Binance are a hash map, and its query string lists
them in the order of iteration.  `FactoryRequest` signs the query string and then
inserts the signature into the same map, and what is sent is the query string of
the map with the signature.  The exchange checks the signature against the query
that precedes it, so the request is good when the second iteration lists the
signed parameters as the first one did, and then the signature.

Nothing in the code makes it so.  The law says that the request is good exactly
when the arrangement of the table happens to be of that form.
-/

import Mathlib.Algebra.Order.BigOperators.Group.List
import Mathlib.Algebra.Order.Group.Nat
import CryptoBot.Math.Joined
import CryptoBot.Math.UnorderedMap

namespace CryptoBot.Requests

open CryptoBot.Math

/-- `ArgsQuery`. -/
abbrev ArgsQuery := UnorderedMap String String

/-- `fmt::format("{}={}", first, second)`. -/
def formatParameter (parameter : String × String) : String := parameter.1 ++ "=" ++ parameter.2

/-- The parameters in the given order, joined by `&`. -/
def joinParameters (parameters : List (String × String)) : String :=
  "&".intercalate (parameters.map formatParameter)

namespace ArgsQuery

def queryString (args : ArgsQuery) : String := joinParameters args.entries

def finalQueryString (args : ArgsQuery) : String :=
  let out := queryString args
  if out.isEmpty then out else "?" ++ out

end ArgsQuery

/-! ## The signer -/

/-- The digest under the secret key, `HMAC(EVP_sha256(), ...)`. -/
structure Signer where
  hmac : String → List UInt8

namespace Signer

def hexDigits : List Char :=
  ['0', '1', '2', '3', '4', '5', '6', '7', '8', '9', 'a', 'b', 'c', 'd', 'e', 'f']

def hexDigit (value : UInt8) : Char := hexDigits.getD value.toNat '0'

def b2aHex (digest : List UInt8) : String :=
  .ofList (digest.flatMap fun value : UInt8 =>
    [hexDigit ((value >>> 4) &&& 0x0F), hexDigit (value &&& 0x0F)])

def sign (signer : Signer) (data : String) : String := b2aHex (signer.hmac data)

theorem hexDigit_mem (value : UInt8) : hexDigit value ∈ hexDigits := by
  rw [hexDigit, List.getD_eq_getElem?_getD]
  cases hdigit : hexDigits[value.toNat]? with
  | none => decide
  | some digit => exact List.mem_of_getElem? hdigit

/-- A signature is made of hexadecimal digits. -/
theorem mem_hexDigits_of_mem_sign {signer : Signer} {data : String} {char : Char}
    (h : char ∈ (signer.sign data).toList) : char ∈ hexDigits := by
  rw [sign, b2aHex, String.toList_ofList, List.mem_flatMap] at h
  obtain ⟨value, -, hchar⟩ := h
  rcases List.mem_pair.mp hchar with rfl | rfl <;> exact hexDigit_mem _

end Signer

/-! ## The request -/

/-- What `FactoryRequest` is built with: the arrangement of the table, the signer,
the receive window of the connection, and the time. -/
structure RequestSetting where
  placement : Placement (String × String)
  signer : Signer
  recvWindow : UInt64
  time : UInt64

namespace RequestSetting

variable (setting : RequestSetting) (args : ArgsQuery)

def addSignParams : ArgsQuery :=
  let args := args.set setting.placement "recvWindow" (toString setting.recvWindow.toNat)
  args.set setting.placement "timestamp" (toString setting.time.toNat)

def addSignature (signature : String) : ArgsQuery :=
  args.set setting.placement "signature" signature

/-- The target of the request that `FactoryRequest` builds. -/
def factoryRequest (endPoint : String) (needSign : Bool) : String :=
  let args :=
    if needSign then
      let args := setting.addSignParams args
      let requestArgs := args.queryString
      let signature := setting.signer.sign requestArgs
      setting.addSignature args signature
    else args
  endPoint ++ args.finalQueryString

/-- The request that a signed query is meant to be. -/
def signedTarget (endPoint : String) : String :=
  let query := (setting.addSignParams args).queryString
  endPoint ++ "?" ++ query ++ "&signature=" ++ setting.signer.sign query

end RequestSetting

/-! ## What joining keeps -/

/-- The pieces between the `&` of a query. -/
def querySegments (parameters : List (String × String)) : List (List Char) :=
  pieces '&' (parameters.map fun parameter => (formatParameter parameter).toList)

variable {parameters first second : List (String × String)}

theorem joinParameters_eq_iff (hfirst : first ≠ []) (hsecond : second ≠ []) :
    joinParameters first = joinParameters second ↔ querySegments first = querySegments second := by
  have hseparator : "&".toList = ['&'] := rfl
  rw [← String.toList_inj, joinParameters, joinParameters, String.toList_intercalate,
    String.toList_intercalate, List.map_map, List.map_map, hseparator,
    intercalate_eq_iff (by simpa using hfirst) (by simpa using hsecond)]
  rfl

theorem joinParameters_concat (h : parameters ≠ []) (parameter : String × String) :
    joinParameters (parameters ++ [parameter]) =
      joinParameters parameters ++ "&" ++ formatParameter parameter := by
  rw [joinParameters, List.map_append, String.intercalate_append_of_ne_nil (by simpa using h)
    (by simp)]
  simp [joinParameters]

theorem isEmpty_joinParameters (h : parameters ≠ []) :
    (joinParameters parameters).isEmpty = false := by
  rw [String.isEmpty_eq_false_iff]
  cases parameters with
  | nil => exact absurd rfl h
  | cons parameter rest => cases rest <;> simp [joinParameters, formatParameter]

theorem length_querySegments_concat (parameters : List (String × String))
    (parameter : String × String) :
    (querySegments parameters).length < (querySegments (parameters ++ [parameter])).length := by
  have hpiece : 0 < ((formatParameter parameter).toList.splitOn '&').length :=
    List.length_pos_iff.mpr (List.splitOn_ne_nil _ _)
  simp only [querySegments, pieces, List.map_append, List.flatMap_append, List.length_append,
    List.map_cons, List.map_nil, List.flatMap_cons, List.flatMap_nil, List.append_nil]
  omega

/-- Parameters as they are written in a query: nothing contains `&`, and no name
contains `=`. -/
def WellFormed (parameter : String × String) : Prop :=
  '&' ∉ parameter.1.toList ∧ '&' ∉ parameter.2.toList ∧ '=' ∉ parameter.1.toList

theorem formatParameter_injective {first second : String × String} (hfirst : WellFormed first)
    (hsecond : WellFormed second) (h : formatParameter first = formatParameter second) :
    first = second := by
  have hsplit : ∀ parameter : String × String, '=' ∉ parameter.1.toList →
      (formatParameter parameter).toList.splitOn '=' =
        parameter.1.toList :: parameter.2.toList.splitOn '=' := by
    intro parameter hname
    have hlist : (formatParameter parameter).toList =
        parameter.1.toList ++ '=' :: parameter.2.toList := by
      simp [formatParameter]
    rw [hlist, List.splitOn_append_cons_self_of_not_mem hname]
  have hboth := hsplit first hfirst.2.2
  rw [h, hsplit second hsecond.2.2, List.cons.injEq] at hboth
  have hvalue := congrArg (List.intercalate ['=']) hboth.2
  rw [List.intercalate_splitOn, List.intercalate_splitOn] at hvalue
  exact Prod.ext (String.toList_inj.mp hboth.1.symm) (String.toList_inj.mp hvalue.symm)

theorem WellFormed.notMem_format {parameter : String × String} (h : WellFormed parameter) :
    '&' ∉ (formatParameter parameter).toList := by
  simp [formatParameter, h.1, h.2.1]

/-- Well-formed parameters can be read off their query. -/
theorem querySegments_inj (hfirst : ∀ parameter ∈ first, WellFormed parameter)
    (hsecond : ∀ parameter ∈ second, WellFormed parameter) :
    querySegments first = querySegments second ↔ first = second := by
  have hpieces : ∀ parameters : List (String × String),
      (∀ parameter ∈ parameters, WellFormed parameter) →
        querySegments parameters =
          parameters.map fun parameter => (formatParameter parameter).toList := by
    intro parameters hparameters
    apply pieces_of_forall_notMem
    intro text htext
    obtain ⟨parameter, hparameter, rfl⟩ := List.mem_map.mp htext
    exact (hparameters parameter hparameter).notMem_format
  rw [hpieces first hfirst, hpieces second hsecond]
  constructor
  · apply eq_of_map_eq
    intro one hone other hother hequal
    exact formatParameter_injective (hfirst one hone) (hsecond other hother)
      (String.toList_inj.mp hequal)
  · intro hequal
    rw [hequal]

namespace RequestSetting

variable {setting : RequestSetting} {args : ArgsQuery}

/-- There is no signature yet, and the table that inserts one lists the parameters
in the order they were signed in, and then the signature; up to where the texts of
the parameters contain an `&` themselves. -/
structure SignatureLast (setting : RequestSetting) (args : ArgsQuery) : Prop where
  absent : args.find "signature" = none
  order : querySegments (setting.placement.insert (setting.addSignParams args).entries
      ("signature", setting.signer.sign (setting.addSignParams args).queryString)) =
    querySegments ((setting.addSignParams args).entries ++
      [("signature", setting.signer.sign (setting.addSignParams args).queryString)])

theorem wellFormed_signature (signer : Signer) (data : String) :
    WellFormed ("signature", signer.sign data) := by
  have hname : '&' ∉ "signature".toList ∧ '=' ∉ "signature".toList := by decide
  refine ⟨hname.1, fun hmem => ?_, hname.2⟩
  exact absurd (Signer.mem_hexDigits_of_mem_sign hmem) (by decide)

theorem find_signature_addSignParams :
    (setting.addSignParams args).find "signature" = args.find "signature" := by
  simp [addSignParams]

theorem entries_addSignature_of_none {signature : String} (h : args.find "signature" = none) :
    (setting.addSignature args signature).entries =
      setting.placement.insert args.entries ("signature", signature) := by
  rw [addSignature, UnorderedMap.set, dif_neg (by simp [h])]

/-- A signature that is replaced in place adds no piece to the query. -/
theorem length_querySegments_addSignature_of_some {data : String}
    (h : (args.find "signature").isSome) :
    (querySegments (setting.addSignature args (setting.signer.sign data)).entries).length ≤
      (querySegments args.entries).length := by
  rw [addSignature, UnorderedMap.set, dif_pos h]
  simp only [UnorderedMap.modify, querySegments, pieces, List.length_flatMap, List.map_map]
  apply List.sum_le_sum
  intro parameter _
  simp only [Function.comp_apply]
  split
  · rename_i hname
    rw [hname, List.splitOn_eq_singleton (wellFormed_signature setting.signer data).notMem_format]
    exact List.length_pos_iff.mpr (List.splitOn_ne_nil _ _)
  · exact Nat.le_refl _

theorem entries_set_ne_nil {placement : Placement (String × String)} {key value : String} :
    (args.set placement key value).entries ≠ [] := by
  intro hempty
  have hfind : (args.set placement key value).find key = some value := by simp
  rw [UnorderedMap.find, hempty] at hfind
  cases hfind

theorem wellFormed_set {placement : Placement (String × String)} {key value : String}
    (hargs : ∀ parameter ∈ args.entries, WellFormed parameter) (hnew : WellFormed (key, value)) :
    ∀ parameter ∈ (args.set placement key value).entries, WellFormed parameter := by
  rintro ⟨name, text⟩ hmem
  rw [UnorderedMap.mem_entries_iff, UnorderedMap.find_set] at hmem
  split at hmem
  · rename_i hname
    cases hmem
    rw [hname]
    exact hnew
  · exact hargs _ ((UnorderedMap.mem_entries_iff args).mpr hmem)

theorem wellFormed_number {key : String} (hand : '&' ∉ key.toList) (hequals : '=' ∉ key.toList)
    (number : ℕ) : WellFormed (key, toString number) := by
  refine ⟨hand, fun hmem => ?_, hequals⟩
  rw [Nat.toString_eq_ofList_toDigits, String.toList_ofList] at hmem
  have hdigit := Nat.isDigit_of_mem_toDigits (by decide) (Nat.le_refl 10) hmem
  exact absurd hdigit (by decide)

/-- A signed request is the one it is meant to be exactly when the table lists the
signature last and the rest as before. -/
theorem factoryRequest_eq_signedTarget_iff (setting : RequestSetting) (args : ArgsQuery)
    (endPoint : String) :
    setting.factoryRequest args endPoint true = setting.signedTarget args endPoint ↔
      setting.SignatureLast args := by
  have hsigned : (setting.addSignParams args).entries ≠ [] := entries_set_ne_nil
  have hsent : (setting.addSignature (setting.addSignParams args)
      (setting.signer.sign (setting.addSignParams args).queryString)).entries ≠ [] :=
    entries_set_ne_nil
  have htarget : setting.signedTarget args endPoint =
      endPoint ++ ("?" ++ joinParameters ((setting.addSignParams args).entries ++
        [("signature", setting.signer.sign (setting.addSignParams args).queryString)])) := by
    rw [joinParameters_concat hsigned]
    simp only [signedTarget, formatParameter, ArgsQuery.queryString, String.append_assoc]
    rfl
  have hrequest : setting.factoryRequest args endPoint true =
      endPoint ++ ("?" ++ joinParameters (setting.addSignature (setting.addSignParams args)
        (setting.signer.sign (setting.addSignParams args).queryString)).entries) := by
    simp only [factoryRequest, if_true, ArgsQuery.finalQueryString]
    rw [if_neg]
    · rfl
    · rw [ArgsQuery.queryString, isEmpty_joinParameters hsent]
      exact Bool.false_ne_true
  rw [hrequest, htarget, String.append_right_inj, String.append_right_inj,
    joinParameters_eq_iff hsent (by simp)]
  cases hfind : args.find "signature" with
  | none =>
      rw [entries_addSignature_of_none (find_signature_addSignParams.trans hfind)]
      exact ⟨fun horder => ⟨hfind, horder⟩, SignatureLast.order⟩
  | some signature =>
      refine ⟨fun hequal => ?_, fun hlast => ?_⟩
      · have hpresent : ((setting.addSignParams args).find "signature").isSome := by
          rw [find_signature_addSignParams, hfind, Option.isSome_some]
        have hlonger := length_querySegments_concat (setting.addSignParams args).entries
          ("signature", setting.signer.sign (setting.addSignParams args).queryString)
        rw [← hequal] at hlonger
        exact absurd (length_querySegments_addSignature_of_some hpresent) (not_le.mpr hlonger)
      · rw [hlast.absent] at hfind
        cases hfind

/-- For well-formed parameters this is a statement about the order of iteration. -/
theorem signatureLast_iff (hargs : ∀ parameter ∈ args.entries, WellFormed parameter) :
    setting.SignatureLast args ↔ args.find "signature" = none ∧
      setting.placement.insert (setting.addSignParams args).entries
          ("signature", setting.signer.sign (setting.addSignParams args).queryString) =
        (setting.addSignParams args).entries ++
          [("signature", setting.signer.sign (setting.addSignParams args).queryString)] := by
  have hsigned : ∀ parameter ∈ (setting.addSignParams args).entries, WellFormed parameter :=
    wellFormed_set (wellFormed_set hargs (wellFormed_number (by decide) (by decide) _))
      (wellFormed_number (by decide) (by decide) _)
  have hsignature := wellFormed_signature setting.signer (setting.addSignParams args).queryString
  have hinsert : ∀ parameter ∈ setting.placement.insert (setting.addSignParams args).entries
      ("signature", setting.signer.sign (setting.addSignParams args).queryString),
        WellFormed parameter := by
    intro parameter hparameter
    rcases setting.placement.mem_insert.mp hparameter with rfl | hold
    · exact hsignature
    · exact hsigned parameter hold
  have hconcat : ∀ parameter ∈ (setting.addSignParams args).entries ++
      [("signature", setting.signer.sign (setting.addSignParams args).queryString)],
        WellFormed parameter := by
    intro parameter hparameter
    rcases List.mem_append.mp hparameter with hold | hnew
    · exact hsigned parameter hold
    · rw [List.mem_singleton.mp hnew]
      exact hsignature
  rw [← querySegments_inj hinsert hconcat]
  exact ⟨fun h => ⟨h.absent, h.order⟩, fun h => ⟨h.1, h.2⟩⟩

/-- A table that inserts at the front, as libstdc++ does into an empty bucket and
into the bucket of a key of the same length. -/
def frontSetting : RequestSetting where
  placement := .front
  signer := ⟨fun _ => [0x5c, 0x0f]⟩
  recvWindow := 5000
  time := 1700000000000

/-- The signature comes first in the query that is sent. -/
theorem factoryRequest_front :
    frontSetting.factoryRequest .empty "/api/v3/account" true ≠
      frontSetting.signedTarget .empty "/api/v3/account" := by
  decide +kernel

end RequestSetting

end CryptoBot.Requests
