import Outbox.Metrics.Exchange
import Outbox.Service.Startup
import Outbox.Text.Uuid
import Std.Async.Signal
import Std.Async.TCP
import Std.Time.DateTime.Timestamp
/-! The service as a program, with its pages and its interrupt. It reaches neither databases nor brokers: a
session finds no server, and a message waits until its time limit, unless it is too large to be sent at all. -/

namespace Outbox.Service

open Relay (Program Action Parcel Delivery)

/-! ### Carrying out programs -/

/-- A store and the numbers, shared by all that runs. -/
structure Machine (σ : Type) where
  store : Store σ
  contents : IO.Ref σ
  metrics : IO.Ref Metrics

def wallClock : IO Instant := do
  let now ← Std.Time.Timestamp.now
  return (Instant.ofNanos? now.toNanosecondsSinceUnixEpoch.toInt).getD .last

/-- Sleeps for milliseconds, or until the work is to stop. -/
partial def pause (stopping : IO Bool) (ms : Nat) : IO Unit := do
  if ms = 0 || (← stopping) then return
  let part := min ms 100
  IO.sleep part.toUInt32
  pause stopping (ms - part)

def undelivered (p : Parcel) : Delivery :=
  if Broker.Producer.isTooLarge p.key.utf8ByteSize p.body.utf8ByteSize then
    .refused (Broker.Producer.sizeFault.refusal p.topic)
  else .timedOut

namespace Machine

variable {σ α : Type}

def note (m : Machine σ) (x : Measurement) : IO Unit := m.metrics.modify (·.record x)

/-- Waits until the last parcel has run into its limit, if one does. -/
def deliver (m : Machine σ) (measured : Bool) (limit : Span) (parcels : List Parcel) : IO (List Delivery) := do
  let start ← IO.monoMsNow
  let deliveries := parcels.map undelivered
  if deliveries.contains .timedOut then pause (pure false) limit.timerMillis
  if measured then
    let seconds := Relay.secondsOf ((← IO.monoMsNow) - start)
    deliveries.forM fun d => m.note (.publish (if d = .timedOut then seconds else 0))
  return deliveries

def answer (m : Machine σ) : (a : Action) → IO a.Answer
  | .ask r => m.contents.modifyGet (m.store.answer r)
  | .now => wallClock
  | .elapsed => IO.monoMsNow
  | .deliver measured limit parcels => m.deliver measured limit parcels
  | .note x => m.note x

def perform (m : Machine σ) : Program α → IO α
  | .done a => return a
  | .act action next => do m.perform (next (← m.answer action))

/-! ### Serving -/

/-- Answers one client after the other. -/
partial def servePages (m : Machine σ) (server : Std.Async.TCP.Socket.Server) : Std.Async.Async Unit := do
  let client ← server.accept
  try
    if let some received ← client.recv? 65536 then
      client.send ⟨((← m.metrics.get).exchange received.toList).toArray⟩
    client.shutdown
  catch _ => pure ()
  m.servePages server

/-- Opens a port for the pages and serves them. -/
def openPages (m : Machine σ) (port : UInt16) : IO Unit := do
  let server ← Std.Async.TCP.Socket.Server.mk
  server.bind (.v4 ⟨.ofParts 0 0 0 0, port⟩)
  server.listen 128
  let _ ← (m.servePages server).toIO

/-- Ticks until it is to stop, or until a tick breaks down. -/
partial def tickOn (m : Machine σ) (relay : Relay) (stopping : IO Bool) (stats : Relay.Stats) : IO Unit := do
  if ← stopping then return
  let (result, stats) ← m.perform (relay.runTick stats)
  match result with
  | .error text => IO.eprint (Breakdown.crash text).report
  | .ok _ =>
    pause stopping relay.config.pause.timerMillis
    m.tickOn relay stopping stats

/-- Runs the relay until an interrupt, and after it until the tick has ended or ten seconds are over. -/
def serve (m : Machine σ) (s : Settings) : IO Exit := do
  let first := (← IO.getRandomBytes 16).toList.foldl (fun n b => n * 256 + b.toNat) 0
  match ← m.perform (prepare s fun n => Uuid.text (first + n)).run with
  | .error breakdown => return .ofBreakdown breakdown
  | .ok relay =>
    let interrupt ← (← Std.Async.Signal.Waiter.mk .sigint false).wait
    let stopping ← IO.mkRef false
    let ticks ← IO.asTask (m.tickOn relay stopping.get {})
    let _ ← interrupt.block
    stopping.set true
    pause (IO.hasFinished ticks) 10000
    return .interrupted

end Machine

def start {σ : Type} (store : Store σ) (contents : σ) (s : Settings) : IO Exit := do
  let m : Machine σ := { store := store, contents := ← IO.mkRef contents, metrics := ← IO.mkRef {} }
  try m.openPages s.metricsPort
  catch e => IO.eprintln ("Metrics server error: " ++ toString e)
  m.serve s

/-- Opens the store that the settings name, and serves from it. -/
def launch (s : Settings) : IO Exit := do
  if s.inMemory then start Table.store {} s
  else match openDatabase s { server := { absent := true } } with
    | (.error breakdown, _) => return .ofBreakdown breakdown
    | (.ok (), client) => start Postgres.Client.store client s

/-- The variables of the environment that settings are read from. -/
def readEnvironment : IO (String → Option String) := do
  let found ← (Setting.all.filterMap Setting.environmentName?).mapM fun name => return (name, ← IO.getEnv name)
  return fun name => (found.lookup name).join

end Outbox.Service

open Outbox Service in
def main (arguments : List String) : IO UInt32 := do
  let exit ← match readSettings arguments (← readEnvironment) with
    | .error exit => pure exit
    | .ok s => launch s
  IO.print exit.output
  IO.eprint exit.errors
  return exit.code.toUInt32
