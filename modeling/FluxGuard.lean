import FluxGuard.Model.Run
import FluxGuard.Proof.Rate
import FluxGuard.Proof.IpText
import FluxGuard.Proof.Ringbuf
import FluxGuard.Model.Brain
import FluxGuard.Proof.World
import FluxGuard.Proof.Tick
import FluxGuard.Proof.System
import FluxGuard.Proof.Lifecycle
import FluxGuard.Proof.Reboot
import FluxGuard.Proof.Orphan
import FluxGuard.Proof.Smp
import FluxGuard.Proof.Amnesty
import FluxGuard.Proof.Conform
import FluxGuard.Proof.Blacklist
import FluxGuard.Proof.Sane
import FluxGuard.Proof.View
import FluxGuard.Proof.Bucket
import FluxGuard.Proof.Refill
import FluxGuard.Proof.Lockstep
import FluxGuard.Proof.Dump
import FluxGuard.Proof.Churn
import FluxGuard.Proof.Robust
import FluxGuard.Proof.SameAddress
import FluxGuard.Data.Bucket
import FluxGuard.Proof.Checkpoint
import FluxGuard.Proof.Agree
import FluxGuard.Proof.Mirror
import FluxGuard.Proof.Isolation
import FluxGuard.Proof.Global
import FluxGuard.Proof.Overload
import FluxGuard.Proof.Account
import FluxGuard.Proof.Export
import FluxGuard.Proof.Busy
import FluxGuard.Proof.Metrics
import FluxGuard.Proof.Scrape
import FluxGuard.Proof.Shields
import FluxGuard.Proof.Allowlist
import FluxGuard.Proof.Survive
import FluxGuard.Proof.Ranges
import FluxGuard.Proof.Meter
import FluxGuard.Proof.Dashboard
import FluxGuard.Proof.Protocol
import FluxGuard.Proof.Config
import FluxGuard.Proof.ConfigSave
import FluxGuard.Proof.Log
import FluxGuard.Proof.Flood
import FluxGuard.Proof.Events
import FluxGuard.Proof.Trace
import FluxGuard.Proof.Grounded
import FluxGuard.Proof.Cause
import FluxGuard.Proof.Innocent
import FluxGuard.Proof.Syscalls
import FluxGuard.Proof.Api
import FluxGuard.Proof.WriteAhead
import FluxGuard.Proof.Session
import FluxGuard.Proof.Overtaken
import FluxGuard.Proof.Throughput
