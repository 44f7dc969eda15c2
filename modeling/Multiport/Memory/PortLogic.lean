import Multiport.Memory.Pipeline
import Multiport.Memory.Interface

namespace Multiport.Memory

/-- Connects a read port to the storage. Answers what it reads. -/
def ReadPort.connect (port : ReadPort) (scope : Scope) (storage : Storage) (stages : Nat)
    (draft : ModuleDraft) : Signal × ModuleDraft :=
  let (enable, draft) := draft.delay (scope.enter "en") port.enable port.clock stages
  let (address, draft) := draft.delay (scope.enter "addr") port.address port.clock stages
  let data := storage.read address
  (⟨.cond enable.expr data.expr (.x data.width), data.width⟩, draft)

/-- Connects a write port to the storage. -/
def WritePort.connect (port : WritePort) (scope : Scope) (storage : Storage) (stages : Nat)
    (draft : ModuleDraft) : ModuleDraft :=
  let (enable, draft) := draft.delay (scope.enter "en") port.enable port.clock stages
  let (address, draft) := draft.delay (scope.enter "addr") port.address port.clock stages
  let (mask, draft) := draft.delay (scope.enter "mask") port.mask port.clock stages
  let (data, draft) := draft.delay (scope.enter "data") port.data port.clock stages
  draft.clocked port.clock
    [.cond (.combine .and enable.expr mask.expr)
      [.nonblocking (storage.slot address) data.expr] []]

/-- Connects a read-write port to the storage. Answers a register that holds what it reads. -/
def ReadWritePort.connect (port : ReadWritePort) (scope : Scope) (storage : Storage) (stages : Nat)
    (draft : ModuleDraft) : Signal × ModuleDraft :=
  let (enable, draft) := draft.delay (scope.enter "en") port.enable port.clock stages
  let (address, draft) := draft.delay (scope.enter "addr") port.address port.clock stages
  let (mode, draft) := draft.delay (scope.enter "wmode") port.mode port.clock stages
  let (mask, draft) := draft.delay (scope.enter "wmask") port.mask port.clock stages
  let (data, draft) := draft.delay (scope.enter "wdata") port.data port.clock stages
  let (writes, draft) := draft.declareNet scope "wcond"
    (.combine .and enable.expr (.combine .and mask.expr mode.expr)) 1
  let (reads, draft) := draft.declareNet scope "rcond"
    (.combine .and enable.expr (.combine .equal mode.expr (.constant 1 0))) 1
  let (held, draft) := draft.declareReg scope "rdata_hold" storage.width
  let draft := draft.combinational
    [.blocking held.expr (.x storage.width),
      .cond writes.expr []
        [.cond reads.expr [.blocking held.expr (storage.slot address)] []]]
  let draft := draft.clocked port.clock
    [.cond writes.expr [.nonblocking (storage.slot address) data.expr] []]
  (held, draft)

end Multiport.Memory
