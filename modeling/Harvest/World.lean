import Harvest.Network
import Harvest.Sink

/-! What sessions have to do with: the relays that they ask and the sink that they fill. -/

namespace Harvest

structure World where
  network : Network := {}
  sink : Sink

namespace World

def connect (world : World) (relay : RelayId) : World × Call Connected :=
  let (network, call) := world.network.connect relay
  ({ world with network }, call)

def opened (world : World) (relay : RelayId) : World :=
  { world with network := world.network.opened relay }

def closed (world : World) (relay : RelayId) : World :=
  { world with network := world.network.closed relay }

def query (world : World) (relay : RelayId) (q : WindowQuery) (timeout now : Nat) :
    World × Call (Except LinkFault Reply) :=
  let (network, call) := world.network.query relay q timeout now
  ({ world with network }, call)

def hand (world : World) (b : Batch) (now : Nat) : World × SinkStep :=
  let (sink, step) := world.sink.hand b now
  ({ world with sink }, step)

/-- The sink does with a batch what its step says. -/
def take (world : World) (b : Batch) (refusal : Option SinkFault) :
    World × Except SinkFault Nat :=
  let (sink, result) := world.sink.take b refusal
  ({ world with sink }, result)

end World

end Harvest
