import SymphonyAkida.AkidaChip
import SymphonyAkida.BatchClient
import SymphonyAkida.Library.Farm

namespace SymphonyAkida.BatchSystem
open Json ShardWire AkidaChip
open BatchWorker (onInvoke)
open BatchClient (Output Tally taskInput senders tasks countOutput)

structure Process where
  fields : Fields
  calls : Nat

-- Where a service instance runs: what its calls meet one after another, whether
-- select_device returns, AKIDA_DEFAULT_MODEL stripped, the bytes of the shared
-- buffer where it could be allocated, and whether the worker could map it.
structure Site where
  rt : Runtime
  node : Node
  worlds : Nat → World
  selected : Bool
  defaultModel : String
  shm : Option Nat
  mapped : Bool

-- The worker's chip; its loads are strict.
def Site.chip (site : Site) : BatchWorker.Chip Process where
  stem process := process.fields.stem
  load process name :=
    let (fields,info) := load site.node (site.worlds process.calls) process.fields name false
    (⟨fields,process.calls+1⟩,info)
  infer process arr :=
    let (fields,r) := infer site.node (site.worlds process.calls) process.fields arr
    (⟨fields,process.calls+1⟩,r)

-- akida_worker's main up to READY; it exits without it where the device or the
-- default model fails.
def Site.ready (site : Site) : Option Process :=
  if !site.selected then none
  else if site.defaultModel = "" then some ⟨.fresh,0⟩
  else
    match site.chip.load ⟨.fresh,0⟩ (.str site.defaultModel) with
    | (process,.ok _) => some process
    | (_,.error _) => none

-- on_create_service, which raises unless the worker says READY.
def Site.create (site : Site) : Option (Link Process) :=
  site.ready.map fun process => {state := process,shm := site.shm.map fun n => List.replicate n 0,mapped := site.mapped}

structure Setup (Id : Type) where
  model : String
  pool : List (List UInt8)
  count : Nat
  workers : Int
  site : Id → Site

variable {Id : Type} (setup : Setup Id)

def Setup.sends (part : Nat × Nat) : List Nat := (tasks part).takeWhile fun i => (taskInput setup.model setup.pool i).isSome

def Setup.threads : List (List Nat) := (senders setup.count setup.workers).map setup.sends

def Setup.invoke (who : Id) (link : Link Process) (i : Nat) : Option (Link Process × Output) :=
  (taskInput setup.model setup.pool i).bind fun input =>
    match onInvoke (setup.site who).rt (setup.site who).chip link input.1 input.2 with
    | (link,.returned text) => some (link,.successful text)
    | (link,.raised _) => some (link,.failed)
    | (_,.waits) => none

-- The service as SOAM runs it. What harms an instance is the death of its worker.
def Setup.service : Farm.Service Id (Link Process) Nat Output where
  start who := (setup.site who).create
  serve := setup.invoke
  harm _ link := {link with alive := false}
  failed := .failed

abbrev Sys (Id : Type) := Farm.Sys Id (Link Process) Nat Output

def Setup.start : Sys Id := .start setup.threads

def books (same : Value → Value → Bool) (s : Sys Id) : Except Raised Tally :=
  (s.fetched.map Prod.snd).foldlM (countOutput same) {}

end SymphonyAkida.BatchSystem
