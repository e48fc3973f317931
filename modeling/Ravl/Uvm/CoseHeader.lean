import Ravl.Util

/-!
# The protected header of a COSE_Sign1 message (cose_common.h, uvm_endorsements.h:95-258)

QCBOR is a decoder whose context is opaque; each of its functions is a parameter. What is used of
an item is its type and, where the type has been asked for, its string or number.
-/

namespace Ravl.Uvm
open ByteLib FallibleLib

/-! ### QCBOR -/

structure QcborItem where
  dataType : ℕ
  int64 : ℤ := 0
  string : Bytes := []
  deriving DecidableEq

def qcborTypeNone : ℕ := 0
def qcborTypeAny : ℕ := 1
def qcborTypeInt64 : ℕ := 2
def qcborTypeArray : ℕ := 4
def qcborTypeByteString : ℕ := 6
def qcborTypeTextString : ℕ := 7

inductive Label
  | int64 (n : ℤ)
  | string (s : Bytes)
  deriving DecidableEq

/-- An item to look for in a map: its label and the type it has to have -/
structure ItemQuery where
  label : Label
  dataType : ℕ
  deriving DecidableEq

inductive NextItem
  | item (i : QcborItem)
  | noMoreItems
  | error
  deriving DecidableEq

/-- QCBORDecode_*. An item takes at least one byte of what is left to decode. -/
structure Qcbor (Ctx : Type) where
  init : Bytes → Ctx
  enterArray : Ctx → Ctx
  nthTagOfLast : Ctx → ℕ → ℕ
  enterBstrWrapped : Ctx → Ctx
  enterMap : Ctx → Ctx
  /-- the item found for each query, of type none where the map has no such label -/
  getItemsInMap : Ctx → List ItemQuery → (ℕ → QcborItem) × Ctx
  enterArrayFromMapN : Ctx → ℤ → Ctx
  getNext : Ctx → NextItem × Ctx
  exitArray : Ctx → Ctx
  exitMap : Ctx → Ctx
  exitBstrWrapped : Ctx → Ctx
  failed : Ctx → Bool
  remaining : Ctx → ℕ
  getNext_remaining : ∀ ctx i ctx', getNext ctx = (.item i, ctx') → remaining ctx' < remaining ctx

/-! ### Header parameters (cose_common.h) -/

def paramAlg : ℤ := 1
def paramContentType : ℤ := 3
def paramX5chain : ℤ := 33
def headerParamIssuer : Bytes := text "iss"
def headerParamFeed : Bytes := text "feed"
def contentTypeApplicationJsonValue : Bytes := text "application/json"
def cborTagCoseSign1 : ℕ := 18

/-- T_COSE_ALGORITHM_PS256, PS384 and PS512 -/
def isRsaAlg (coseAlg : ℤ) : Bool := coseAlg == -37 || coseAlg == -38 || coseAlg == -39

/-! ### Decoding -/

structure UvmEndorsementsProtectedHeader where
  alg : ℤ := 0
  contentType : Bytes := []
  x5Chain : List Bytes := []
  iss : Bytes := []
  feed : Bytes := []
  deriving DecidableEq

section
variable {Ctx : Type} (q : Qcbor Ctx)

/-- The loop over the array; what is left shrinks, so the fuel is never used up. -/
def decodeItems : ℕ → Ctx → Result (List Bytes × Ctx)
  | 0, _ => throw (.undefined "the array does not end")
  | fuel + 1, ctx =>
    match q.getNext ctx with
    | (.noMoreItems, ctx) => pure ([], ctx)
    | (.error, _) => throw (.exception "Item in x5chain is not well-formed")
    | (.item i, ctx) => do
      refuse (i.dataType ≠ qcborTypeByteString)
        (.exception "Next item in x5chain was not of type byte string")
      let (parsed, ctx) ← decodeItems fuel ctx
      pure (i.string :: parsed, ctx)

def decodeX5chain (ctx : Ctx) (x5chain : QcborItem) : Result (List Bytes × Ctx) :=
  if x5chain.dataType = qcborTypeArray then do
    let ctx := q.enterArrayFromMapN ctx paramX5chain
    let (parsed, ctx) ← decodeItems q (q.remaining ctx + 1) ctx
    refuse (parsed = []) (.exception "x5chain array length was 0 in COSE header")
    pure (parsed, q.exitArray ctx)
  else if x5chain.dataType = qcborTypeByteString then pure ([x5chain.string], ctx)
  else throw (.exception ("Value type " ++ toString x5chain.dataType ++
    " of x5chain in COSE header is not array or byte string"))

/-- `header_items`, in the order of their indices -/
def headerQueries : List ItemQuery :=
  [⟨.int64 paramAlg, qcborTypeInt64⟩, ⟨.int64 paramContentType, qcborTypeTextString⟩,
    ⟨.int64 paramX5chain, qcborTypeAny⟩, ⟨.string headerParamIssuer, qcborTypeTextString⟩,
    ⟨.string headerParamFeed, qcborTypeTextString⟩]

/-- A parameter that is absent leaves the member as it was. -/
def intOf (i : QcborItem) : ℤ := if i.dataType = qcborTypeNone then 0 else i.int64
def stringOf (i : QcborItem) : Bytes := if i.dataType = qcborTypeNone then [] else i.string

def x5chainOf (ctx : Ctx) (i : QcborItem) : Result (List Bytes × Ctx) :=
  if i.dataType = qcborTypeNone then pure ([], ctx) else decodeX5chain q ctx i

def decodeProtectedHeader (uvmEndorsementsRaw : Bytes) :
    Result UvmEndorsementsProtectedHeader := do
  let ctx := q.enterArray (q.init uvmEndorsementsRaw)
  refuse (q.failed ctx) (.exception "Failed to parse COSE_Sign1 outer array")
  refuse (q.nthTagOfLast ctx 0 ≠ cborTagCoseSign1) (.exception "Failed to parse COSE_Sign1 tag")
  let (items, ctx) := q.getItemsInMap (q.enterMap (q.enterBstrWrapped ctx)) headerQueries
  refuse (q.failed ctx) (.exception "Failed to decode protected header")
  let (x5Chain, ctx) ← x5chainOf q ctx (items 2)
  refuse (q.failed (q.exitBstrWrapped (q.exitMap ctx)))
    (.exception "Failed to decode protected header")
  pure {
    alg := intOf (items 0)
    contentType := stringOf (items 1)
    x5Chain := x5Chain
    iss := stringOf (items 3)
    feed := stringOf (items 4) }

/-! ### The loop ends -/

theorem decodeItems_fails (fuel : ℕ) (ctx : Ctx) (hfuel : q.remaining ctx < fuel) :
    FailsWith Thrown (decodeItems q fuel ctx) := by
  induction fuel generalizing ctx with
  | zero => omega
  | succ fuel ih =>
    unfold decodeItems
    split
    · exact FailsWith.pure _ _
    · exact FailsWith.throw (thrown _)
    next i ctx' hnext =>
      have hless := q.getNext_remaining ctx i ctx' hnext
      exact FailsWith.bind (FailsWith.refuse (thrown _)) fun _ _ =>
        FailsWith.bind (ih ctx' (by omega)) fun _ _ => FailsWith.pure _ _

theorem decodeX5chain_fails (ctx : Ctx) (i : QcborItem) :
    FailsWith Thrown (decodeX5chain q ctx i) := by
  unfold decodeX5chain
  split
  · exact FailsWith.bind (decodeItems_fails q _ _ (Nat.lt_succ_self _)) fun _ _ =>
      FailsWith.bind (FailsWith.refuse (thrown _)) fun _ _ => FailsWith.pure _ _
  · split
    · exact FailsWith.pure _ _
    · exact FailsWith.throw (thrown _)

theorem decodeProtectedHeader_fails (raw : Bytes) :
    FailsWith Thrown (decodeProtectedHeader q raw) := by
  refine FailsWith.bind (FailsWith.refuse (thrown _)) fun _ _ =>
    FailsWith.bind (FailsWith.refuse (thrown _)) fun _ _ =>
      FailsWith.bind (FailsWith.refuse (thrown _)) fun _ _ => FailsWith.bind ?_ fun _ _ =>
        FailsWith.bind (FailsWith.refuse (thrown _)) fun _ _ => FailsWith.pure _ _
  unfold x5chainOf
  split
  · exact FailsWith.pure _ _
  · exact decodeX5chain_fails q _ _

end

end Ravl.Uvm
