import Fullmac.Lists.ListQ

/-!
# The packet buffer pools

Reference: `host/lib/apps/pbuf.c`, functions `PBUF_Init`, `__get_pbuf_from_freeQ`,
`PBUF_MAlloc_Raw`, `__PBUF_MFree_0`, `_PBUF_MFree`; `host/include/ssv6xxx_common.h`,
`PBuf_Type_E`; `host/include/priv/hw/ssv_regs.h`.

Two arrays of entries, each with a free list. An entry that has been used once stays valid and keeps
its block; the free lists hold the valid entries that nobody uses. The list nodes are the first
fields of the entries, so that a node stands for its entry.

What `OS_MemAlloc` answers is an argument, and `blocks` is what it has allocated and not got back:
the address of such a block is no answer `OS_MemAlloc` can give, which `liveBlock` says.
-/

namespace Fullmac.Pbuf

open Fullmac.Lists

/-- `enum PBuf_Type_E` -/
inductive PBufType
  | notypeBuf
  | txBuf
  | rxBuf
  deriving DecidableEq

def PBufType.code : PBufType → UInt16
  | .notypeBuf => 0
  | .txBuf => 1
  | .rxBuf => 2

/-- The two pools. -/
inductive Pool
  | notype
  | rx
  deriving DecidableEq

/-- The type of the buffers of a pool. -/
def Pool.bufType : Pool → PBufType
  | .notype => .notypeBuf
  | .rx => .rxBuf

/-- The addresses of list nodes. -/
inductive Node
  | null
  | hd (pool : Pool)
  | entry (pool : Pool) (i : ℕ)
  deriving DecidableEq

/-- `struct HW_PBUF_Info_st` behind its list node. -/
structure HwPbufInfo where
  valid : UInt16
  pbufId : UInt16
  size : UInt16
  pbufType : UInt16
  pa : UInt32

/-- What `OS_MemSET` with zero leaves of an entry. -/
def zeroInfo : HwPbufInfo := { valid := 0, pbufId := 0, size := 0, pbufType := 0, pa := 0 }

/-- What `OS_MemSET` with zero leaves of a list node. -/
def zeroNode : ListQ Node := { next := .null, prev := .null, qlen := 0 }

def maxRxPbufNo : ℕ := 16

/-- `PBU_OFFSET + TXPB_RVSD * TX_PKT_RES_BASE` -/
def extraHeader : UInt32 := 80 + 3 * 16

/-- The static variables, and the blocks allocated with their sizes. -/
structure Pools where
  mem : Node → ListQ Node
  info : Node → HwPbufInfo
  notypePbufMaxNo : UInt32
  blocks : UInt32 → Option UInt32

/-- How many entries a pool has. -/
def Pools.cap (s : Pools) : Pool → ℕ
  | .notype => s.notypePbufMaxNo.toNat
  | .rx => maxRxPbufNo

/-- What must not happen: a failed assertion, an access through `NULL`, an answer of `OS_MemAlloc`
that is in use. -/
inductive Fault
  | assertion
  | nullAccess
  | liveBlock
  deriving DecidableEq

/-- `PBUF_Init`, where `OS_MemAlloc` provides the arrays. -/
def pbufInit (pbufNo : UInt32) : Pools :=
  let mem := listQInit (fun _ => zeroNode) (.hd .notype)
  { mem := listQInit mem (.hd .rx), info := fun _ => zeroInfo, notypePbufMaxNo := pbufNo,
    blocks := fun _ => none }

/-- `OS_MemAlloc` answers `p`. -/
def osMemAlloc (blocks : UInt32 → Option UInt32) (size p : UInt32) :
    Except Fault (UInt32 → Option UInt32) :=
  if p = 0 then .ok blocks
  else if blocks p = none then .ok (Function.update blocks p (some size))
  else .error .liveBlock

def osMemFree (blocks : UInt32 → Option UInt32) (p : UInt32) : UInt32 → Option UInt32 :=
  Function.update blocks p none

def getPbufFromFreeQ (s : Pools) (size : UInt32) (fqd : Node) (bufType : PBufType) (p : UInt32) :
    Except Fault (Pools × UInt32) := do
  let (mem, hpbf) := listQDeq .null s.mem fqd
  let s := { s with mem := mem }
  if hpbf = .null then .error .nullAccess
  else if (s.info hpbf).size.toUInt32 < size then
    let blocks ← osMemAlloc (osMemFree s.blocks (s.info hpbf).pa) size p
    if p = 0 then .error .assertion
    else
      let info := { s.info hpbf with
        pa := p, valid := 1, size := size.toUInt16, pbufType := bufType.code }
      .ok ({ s with blocks := blocks, info := Function.update s.info hpbf info }, p)
  else .ok (s, (s.info hpbf).pa)

/-- The first entry that has never been used. -/
def unused (s : Pools) (pool : Pool) : Option ℕ :=
  (List.range (s.cap pool)).find? fun i => (s.info (.entry pool i)).valid ≠ 1

/-- The case of one pool; `onNull` is what it does when there is no memory. -/
def mallocFrom (s : Pools) (pool : Pool) (size : UInt32) (bufType : PBufType) (p : UInt32)
    (onNull : Except Fault (Pools × UInt32)) : Except Fault (Pools × UInt32) :=
  if listQLen s.mem (.hd pool) = 0 then
    match unused s pool with
    | none => .ok (s, 0)
    | some i => do
      let blocks ← osMemAlloc s.blocks size p
      if p = 0 then onNull
      else
        let info : HwPbufInfo :=
          { valid := 1, pbufId := UInt16.ofNat i, size := size.toUInt16, pbufType := bufType.code,
            pa := p }
        .ok ({ s with
          mem := Function.update s.mem (.entry pool i) zeroNode
          info := Function.update s.info (.entry pool i) info
          blocks := blocks }, p)
  else getPbufFromFreeQ s size (.hd pool) bufType p

/-- The size with the room for headers in front. -/
def requested (size needHeader : UInt32) : UInt32 :=
  if needHeader ≠ 0 then size + extraHeader else size

/-- `PBUF_MAlloc_Raw`, where `OS_MemAlloc` answers `p`. -/
def pbufMAllocRaw (s : Pools) (size needHeader : UInt32) (bufType : PBufType) (p : UInt32) :
    Except Fault (Pools × UInt32) :=
  let size := requested size needHeader
  match bufType with
  | .notypeBuf => mallocFrom s .notype size bufType p (.error .assertion)
  | .rxBuf => mallocFrom s .rx size bufType p (.ok (s, 0))
  | .txBuf => .ok (s, 0)

/-- The first valid entry whose block is at `msg`. -/
def holder (s : Pools) (pool : Pool) (msg : UInt32) : Option ℕ :=
  (List.range (s.cap pool)).find? fun i =>
    (s.info (.entry pool i)).valid ≠ 0 ∧ (s.info (.entry pool i)).pa = msg

/-- `__PBUF_MFree_0` -/
def pbufMFree (s : Pools) (msg : UInt32) : Except Fault Pools :=
  match holder s .notype msg with
  | some i => .ok { s with mem := listQQtail s.mem (.hd .notype) (.entry .notype i) }
  | none =>
    match holder s .rx msg with
    | some i => .ok { s with mem := listQQtail s.mem (.hd .rx) (.entry .rx i) }
    | none => .error .assertion

/-! ## Runs -/

/-- The pools, and the buffers handed out and not given back. -/
structure State where
  pools : Pools
  out : List UInt32

/-- A call, with what `OS_MemAlloc` answers in it. -/
inductive Call
  | malloc (size needHeader : UInt32) (bufType : PBufType) (p : UInt32)
  | free (msg : UInt32)

inductive Answer
  | buffer (p : UInt32)
  | freed
  | fault (f : Fault)
  deriving DecidableEq

def step (s : State) : Call → State × List Answer
  | .malloc size needHeader bufType p =>
    match pbufMAllocRaw s.pools size needHeader bufType p with
    | .ok (pools, r) => (⟨pools, if r = 0 then s.out else r :: s.out⟩, [.buffer r])
    | .error f => (s, [.fault f])
  | .free msg =>
    match pbufMFree s.pools msg with
    | .ok pools => (⟨pools, s.out.erase msg⟩, [.freed])
    | .error f => (s, [.fault f])

end Fullmac.Pbuf
