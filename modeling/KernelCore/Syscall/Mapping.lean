import KernelCore.Heap.Routing
import KernelCore.Syscall.FileContents
import KernelCore.Syscall.Protection

/-! # The mmap system call

Maps fresh memory into the address space of the current task, at a fixed address or in the first free
area, and fills it with the contents of a file unless it is anonymous. The contents travel through a
staging buffer of the kernel heap, which is given back whatever happens. All of this holds the lock of
the address space.
-/

namespace KernelCore.Kernel

open Word

variable {β : Type} [HeapBackend β]

def findArea (hint : Address) (length : UInt64) (limit : Range) :
    Action (Kernel β) (Option Address) :=
  ask (fun k => (k.space.findFreeArea hint length limit, k)) (.findFreeArea hint length limit)

/-- Makes a mapping that is backed at once. -/
def mapRegion (start : Address) (length : UInt64) (permissions : Permissions) :
    Action (Kernel β) (Except SpaceError Unit) :=
  ask (fun k =>
      match k.space.mapAlloc start length permissions true with
      | .ok s => (.ok (), { k with space := s })
      | .error e => (.error e, k))
    (.mapAlloc start length permissions true)

def writeRegion (start source : Address) (length : UInt64) :
    Action (Kernel β) (Except SpaceError Unit) :=
  ask (fun k =>
      match k.space.write start ((k.memory.load? source length).getD .empty) with
      | .ok s => (.ok (), { k with space := s })
      | .error e => (.error e, k))
    (.spaceWrite start source length)

def clearBytes (a : Address) (length : UInt64) : Action (Kernel β) Unit :=
  Action.update fun k => { k with memory := k.memory.clear a length }

/-- Fills a mapping from a file through a buffer. -/
def copyContents (start : Address) (length : UInt64) (fd : Descriptor) (offset : UInt64)
    (buffer : Address) : Handler (Kernel β) Unit := do
  let count ← readContents fd offset buffer length
  ExceptT.lift <| Action.say .debug
    [.text "mmap: read ", .number count.toNat, .text " bytes from fd ", .number fd.toInt, .text "\n"]
  match ← ExceptT.lift (writeRegion start buffer count) with
  | .ok () => return
  | .error e =>
      ExceptT.lift <| Action.say .important <|
        .text "mmap: copying file contents to " :: Item.address start ++
          .text " failed: " :: e.items ++ [.text "\n"]
      throw .fault

def populate (start : Address) (length : UInt64) (fd : Descriptor) (offset : UInt64) :
    Handler (Kernel β) Unit := do
  match ← ExceptT.lift (allocate length 1) with
  | none => throw .noMemory
  | some buffer =>
      ExceptT.lift (clearBytes buffer length)
      let outcome ← ExceptT.lift (copyContents start length fd offset buffer).run
      ExceptT.lift (free buffer)
      ExceptT.mk (pure outcome)

/-- What a caller asks to be mapped. -/
structure MapRequest where
  addr : Address
  length : UInt64
  prot : UInt32
  flags : UInt32
  fd : Descriptor
  offset : UInt64
  deriving DecidableEq, Repr

/-- Where a mapping of some length goes. -/
def place (r : MapRequest) (flags : MapFlags) (length : UInt64) : Handler (Kernel β) Address := do
  if flags.contains MapFlags.fixed then
    if isAligned r.addr pageBytes then return r.addr else throw .invalid
  else
    let limit := (← ExceptT.lift Action.current).space.limit
    match ← ExceptT.lift (findArea r.addr length limit) with
    | some start => return start
    | none => throw .noMemory

def needOpenFile (fd : Descriptor) : Handler (Kernel β) Unit := do
  if fd < 0 then throw .badDescriptor
  unless ← ExceptT.lift (isOpenFile fd) do throw .badDescriptor

/-- Makes the mapping of a request at a place that was found for it, and fills it. -/
def mapAt (r : MapRequest) (permissions : Permissions) (anonymous : Bool) (length : UInt64)
    (start : Address) : Handler (Kernel β) Address := do
  match ← ExceptT.lift (mapRegion start length permissions) with
  | .error e =>
      ExceptT.lift <| Action.say .important <|
        .text "mmap: mapping " :: .number length.toNat :: .text " bytes at " ::
          Item.address start ++ .text " failed: " :: e.items ++ [.text "\n"]
      throw e.toErrno
  | .ok () =>
      unless anonymous do populate start r.length r.fd r.offset
      return start

/-- Makes the mapping of a request with known bits, of a length in whole pages. -/
def mapPlaced (r : MapRequest) (prot : Protection) (flags : MapFlags) (length : UInt64) :
    Handler (Kernel β) Address := do
  let start ← place r flags length
  let anonymous := flags.contains MapFlags.anonymous
  unless anonymous do needOpenFile r.fd
  mapAt r prot.toPermissions anonymous length start

def requestItems (r : MapRequest) : List Item :=
  .text "sys_mmap <= addr: " :: Item.address r.addr ++
    [.text ", length: ", .number r.length.toNat, .text ", prot: ", .number r.prot.toNat,
      .text ", flags: ", .number r.flags.toNat, .text ", fd: ", .number r.fd.toInt,
      .text ", offset: ", .number r.offset.toNat, .text "\n"]

def mapMemory (r : MapRequest) : Handler (Kernel β) Address := do
  match Flags.ofBits? r.prot.toBitVec, Flags.ofBits? r.flags.toBitVec with
  | some (prot : Protection), some (flags : MapFlags) =>
      ExceptT.lift (Action.say .debug (requestItems r))
      match alignUp? r.length pageBytes with
      | none => throw .invalid
      | some length =>
          if length = 0 then throw .invalid
          ExceptT.lift needTask
          ExceptT.mk (holdingLock (mapPlaced r prot flags length).run)
  | _, _ =>
      ExceptT.lift <| Action.say .important
        [.text "mmap: unsupported prot ", .number r.prot.toNat, .text " or flags ",
          .number r.flags.toNat, .text "\n"]
      throw .invalid

end KernelCore.Kernel
