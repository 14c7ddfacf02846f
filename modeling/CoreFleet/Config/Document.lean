import CoreFleet.Config.Basic
import CoreFleet.Json.Reader

/-!
# Configurations as documents

A configuration is written as a JSON record of sections, each of which is a record. What
is not given keeps its default value, in a section as well as in the whole. Values are
entered as they stand : a count of zero is not replaced here.
-/

namespace CoreFleet.Config

/-- The fields of the launch section. -/
def Launch.fields : List (Json.Field Launch) := [
  .of "program_name" Json.text fun l s => { l with programName := s },
  .of "memory_channels" (Json.optional Json.word32) fun l n => { l with memoryChannels := n },
  .of "core_mask" (Json.optional Json.text) fun l s => { l with coreMask := s },
  .of "core_list" (Json.optional Json.text) fun l s => { l with coreList := s },
  .of "main_lcore" (Json.optional Json.word32) fun l n => { l with mainLcore := n },
  .of "args" (Json.sequence Json.text) fun l args => { l with args }]

/-- Reads the launch section. -/
def Launch.reader : Json.Reader Launch := Json.record "struct EalSection" Launch.fields {}

/-- The fields of the section on the workers. -/
def tuningFields : List (Json.Field Tuning) := [
  .of "pipeline_quanta" Json.word32 fun t n => { t with pipelineQuanta := n },
  .of "control_interval" Json.word32 fun t n => { t with controlInterval := n },
  .of "idle_poll_us" Json.word64 fun t n => { t with idlePollUs := n }]

/-- Reads the section on the workers. -/
def tuningReader : Json.Reader Tuning := Json.record "struct ThreadConfig" tuningFields {}

/-- The fields of the heartbeat section. -/
def Heartbeat.fields : List (Json.Field Heartbeat) := [
  .of "thread_id" (Json.optional Json.word32) fun h n => { h with worker := n },
  .of "period_ms" Json.word64 fun h n => { h with periodMs := n }]

/-- Reads the heartbeat section. -/
def Heartbeat.reader : Json.Reader Heartbeat :=
  Json.record "struct HeartbeatSection" Heartbeat.fields {}

/-- The sections of a configuration. -/
def fields : List (Json.Field Config) := [
  .of "eal" Launch.reader fun c launch => { c with launch },
  .of "threads" tuningReader fun c tuning => { c with tuning },
  .of "heartbeat" Heartbeat.reader fun c heartbeat => { c with heartbeat },
  .of "stop_timeout_ms" Json.word64 fun c n => { c with stopTimeoutMs := n }]

/-- Reads a configuration. -/
def reader : Json.Reader Config := Json.record "struct Config" fields {}

/-- The configuration that a document describes. -/
def ofJson (text : String) : Except Json.Fault Config := Json.document reader text.toList

/-- The tuning that a document of its section alone describes. -/
def tuningOfJson (text : String) : Except Json.Fault Tuning :=
  Json.document tuningReader text.toList

end CoreFleet.Config
