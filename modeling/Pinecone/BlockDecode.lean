import Pinecone.BlockCache

/-! Decoding blocks into the cache, for any code that the callbacks give. -/

namespace Pinecone

/-- What a fetch callback leaves, and whether it invalidated the decoded mappings on its way. -/
structure FetchReply where
  fetched : Option (U64 × U32)
  remapped : Bool

/-- What a mapping validator answers, and whether it invalidated the decoded mappings. -/
structure MappingReply where
  current : Bool
  remapped : Bool

/-- The callbacks of the block cache and the memory it reads, over the state `σ` of all that is
outside of it. -/
structure CodeSource (σ : Type) where
  vector : VectorDecoder
  fetchInstruction : U64 → σ → FetchReply × σ
  validateMapping : ℕ → U64 → U64 → σ → MappingReply × σ
  ramWord : ℕ → U64 → σ → U32
  codeMutationEpoch : Option ℕ → σ → U64
  pageWriteGeneration : Option ℕ → U64 → U64 → σ → Option U64
  markCodePage : Option ℕ → U64 → U64 → σ → σ

/-- The block cache and the rest of the emulator. -/
structure BlockWorld (σ : Type) where
  cache : BlockCache
  outside : σ

/-- `AVZ_NATIVE_BLOCK_DECODE_*`. -/
inductive BlockDecodeStatus
  | ok
  | fetchFault
  | unsupported
  deriving DecidableEq

/-- `avz_native_kind_terminates_block`. -/
def NativeOpKind.terminatesBlock : NativeOpKind → Bool
  | .cbz | .tbz | .bcond | .branch | .registerBranch | .systemRegisterWrite | .systemInstruction
  | .exceptionReturn | .pstateImmediate | .synchronousException | .wait => true
  | _ => false

/-- `avz_native_kind_has_linear_fallthrough`. -/
def NativeOpKind.hasLinearFallthrough : NativeOpKind → Bool
  | .cbz | .tbz | .bcond => true
  | _ => false

/-- `avz_instruction_requires_vm_exit`. -/
def instructionRequiresVmExit (instruction : U32) (kind : NativeOpKind) : Bool :=
  instruction &&& 0xfffff0ff#32 = 0xd503305f#32 || kind = .halt

/-- The block ends after the instruction. -/
def endsBlock (instruction : NativeInstruction) : Bool :=
  instruction.kind.terminatesBlock ||
    (instruction.kind = .barrier && instruction.raw &&& 0xfffff0ff#32 = 0xd50330df#32)

namespace BlockWorld

variable {σ : Type} (source : CodeSource σ) (w : BlockWorld σ)

/-- The virtual page and the physical address that the next word is read from directly. -/
abbrev DirectFetch := Option (U64 × U64)

/-- The direct fetch that the decode window allows at the start of a block. -/
def openDecodeWindow (key : BlockKey) : DirectFetch × BlockWorld σ :=
  match w.cache.decodeWindow with
  | none => (none, w)
  | some window =>
    if window.virtualPage = key.pc >>> 12 ∧ window.key.contextsEqual key then
      let pageOffset := key.pc &&& 0xfff#64
      let physicalAddress := window.physicalPage + pageOffset
      if window.physicalPage ≤ 0xffffffffffffffff#64 - pageOffset ∧
          (w.cache.directPhysicalPointer physicalAddress 4).isSome then
        (some (key.pc >>> 12, physicalAddress), w)
      else (none, { w with cache := w.cache.invalidateDecodeWindow })
    else (none, w)

/-- The direct pointer to the next word, if it is on the page that was read last. -/
def directWord (direct : DirectFetch) (pc : U64) : Option (U64 × U32) :=
  match direct with
  | none => none
  | some (virtualPage, physicalAddress) =>
    if pc >>> 12 = virtualPage then
      (w.cache.directPhysicalPointer physicalAddress 4).map fun (ram, offset) =>
        (physicalAddress, source.ramWord ram offset w.outside)
    else none

/-- The effect of a callback on the cache. -/
def remap (remapped : Bool) : BlockCache :=
  if remapped then w.cache.invalidateTranslationMappings else w.cache

/-- The next word and its physical address, read directly or by the callback. -/
def fetchWord (direct : DirectFetch) (pc : U64) : Option (U64 × U32) × BlockWorld σ :=
  match w.directWord source direct pc with
  | some fetched => (some fetched, w)
  | none =>
    let (reply, outside) := source.fetchInstruction pc w.outside
    (reply.fetched, ⟨w.remap reply.remapped, outside⟩)

/-- The word after the one fetched is read directly if this one is in RAM at its page offset. -/
def followDirectly (key : BlockKey) (pc physicalAddress : U64) : DirectFetch × BlockWorld σ :=
  if physicalAddress ≤ 0xffffffffffffffff#64 - 4 ∧
      physicalAddress &&& 0xfff#64 = pc &&& 0xfff#64 ∧
      (w.cache.directPhysicalPointer physicalAddress 4).isSome then
    (some (pc >>> 12, physicalAddress + 4),
      { w with cache := { w.cache with
          decodeWindow := some ⟨key, pc >>> 12, physicalAddress - (pc &&& 0xfff#64)⟩ } })
  else (none, w)

/-- The instruction that a block may hold. -/
def decodeWord (raw : U32) : Option NativeInstruction :=
  (decodeInstruction source.vector raw).filter fun instruction =>
    !instructionRequiresVmExit raw instruction.kind

/-- The loop of `avz_decode_block`, with the instructions it may still take. -/
def decodeLoop (key : BlockKey) :
    ℕ → DirectFetch → U64 → List BlockInstruction → BlockWorld σ →
      (BlockDecodeStatus × List BlockInstruction) × BlockWorld σ
  | 0, _, _, decoded, w => ((.ok, decoded), w)
  | left + 1, direct, pc, decoded, w =>
    match w.fetchWord source direct pc with
    | (none, w) => ((if decoded = [] then .fetchFault else .ok, decoded), w)
    | (some (physicalAddress, raw), w) =>
      let (direct, w) := w.followDirectly key pc physicalAddress
      match decodeWord source raw with
      | none => ((if decoded = [] then .unsupported else .ok, decoded), w)
      | some instruction =>
        let decoded := decoded ++ [⟨instruction, physicalAddress⟩]
        if endsBlock instruction then ((.ok, decoded), w)
        else decodeLoop key left direct (pc + 4) decoded w

/-- `avz_decode_block`. -/
def decodeBlock (key : BlockKey) : (BlockDecodeStatus × DecodedBlock) × BlockWorld σ :=
  let (direct, w) := w.openDecodeWindow key
  let ((status, decoded), w) := decodeLoop source key blockMaxInstructions direct key.pc [] w
  ((status, { DecodedBlock.empty key with instructions := decoded }), w)

end BlockWorld

end Pinecone
