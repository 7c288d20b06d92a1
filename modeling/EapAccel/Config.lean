import EapAccel.EapTls.Packet

/-!
# Operator configuration

`proxy/config.py`: the knobs the mediation depends on, and `Config.validate`.
Hosts, ports, secrets and the output directory decide nothing here.
-/

set_option autoImplicit false

namespace EapAccel

structure DownstreamConfig where
  fragmentSize : ℕ
  deriving DecidableEq, Repr

structure UpstreamConfig where
  fragmentSize : ℕ
  framedMtu : Option ℕ := none
  stripFramedMtu : Bool := false
  deriving DecidableEq, Repr

structure Config where
  mode : String
  maxMessageLen : ℕ
  downstream : DownstreamConfig
  upstream : UpstreamConfig
  deriving DecidableEq, Repr

/-- The two modes that `validate` lets through. -/
inductive Mode where
  | reassemble
  | passthrough
  deriving DecidableEq, Repr

namespace Config

def validate (cfg : Config) : Except Raised Unit :=
  if cfg.mode ≠ "reassemble" ∧ cfg.mode ≠ "passthrough" then
    .error (.valueError s!"mode must be reassemble|passthrough, got '{cfg.mode}'")
  else if ¬ (1 ≤ cfg.downstream.fragmentSize ∧ cfg.downstream.fragmentSize ≤ 65000) then
    .error (.valueError "downstream.fragment_size out of range")
  else if ¬ (1 ≤ cfg.upstream.fragmentSize ∧ cfg.upstream.fragmentSize ≤ 65000) then
    .error (.valueError "upstream.fragment_size out of range")
  else if cfg.upstream.framedMtu.any (fun mtu => ¬ (1 ≤ mtu ∧ mtu ≤ 65000)) then
    .error (.valueError "upstream.framed_mtu out of range")
  -- `strip_framed_mtu` is a `Bool` by its type.
  else if cfg.maxMessageLen < 4096 then
    .error (.valueError "max_message_len too small for any real cert chain")
  else .ok ()

/-- The mode of the sessions of an accepted configuration. -/
def sessionMode (cfg : Config) : Mode :=
  if cfg.mode = "passthrough" then .passthrough else .reassemble

/-- What an accepted configuration is known to satisfy. -/
structure Accepted (cfg : Config) : Prop where
  mode : cfg.mode = "reassemble" ∨ cfg.mode = "passthrough"
  downstream : 1 ≤ cfg.downstream.fragmentSize ∧ cfg.downstream.fragmentSize ≤ 65000
  upstream : 1 ≤ cfg.upstream.fragmentSize ∧ cfg.upstream.fragmentSize ≤ 65000
  framedMtu : ∀ mtu ∈ cfg.upstream.framedMtu, 1 ≤ mtu ∧ mtu ≤ 65000
  maxMessageLen : 4096 ≤ cfg.maxMessageLen

theorem accepted_of_validate {cfg : Config} (valid : cfg.validate = .ok ()) : cfg.Accepted := by
  rw [validate] at valid
  split at valid
  next => cases valid
  next mode =>
    split at valid
    next => cases valid
    next down =>
      split at valid
      next => cases valid
      next up =>
        split at valid
        next => cases valid
        next mtu =>
          split at valid
          next => cases valid
          next len =>
            refine ⟨by tauto, not_not.mp down, not_not.mp up, ?_, by omega⟩
            intro n some_n
            rw [Option.mem_def] at some_n
            simp only [some_n, Option.any_some, decide_not, Bool.not_eq_eq_eq_not, Bool.not_true,
              decide_eq_false_iff_not, not_not] at mtu
            exact mtu

/-- The configuration of `config.yaml.example`, in the given mode. -/
def sample (mode : String) : Config where
  mode := mode
  maxMessageLen := 262144
  downstream := { fragmentSize := 1000 }
  upstream := { fragmentSize := 60000, framedMtu := some 60000, stripFramedMtu := false }

end Config
end EapAccel
