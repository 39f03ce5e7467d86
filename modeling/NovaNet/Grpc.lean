import NovaNet.AddrText

/-! Errors of the gRPC servers of the agent and of the dataplane, and the address fields of the
requests to the dataplane. -/

namespace NovaNet

inductive GrpcCode where
  | invalidArgument
  | resourceExhausted
  | internal
  deriving DecidableEq

structure GrpcError where
  code : GrpcCode
  message : String
  deriving DecidableEq

def parseIpField (s : String) : Except GrpcError Net.IP :=
  match Net.parseIp s with
  | some ip => .ok ip
  | none => .error ⟨.invalidArgument, "invalid IP '" ++ s ++ "': invalid IP address syntax"⟩

theorem parseIpField_error {s : String} {e : GrpcError} (h : parseIpField s = .error e) :
    e.code = .invalidArgument := by
  unfold parseIpField at h
  split at h
  · cases h
  · obtain rfl := Except.error.inj h
    rfl

theorem code_of_parse_bind {α : Type} {s : String} {f : Net.IP → Except GrpcError α}
    {e : GrpcError} (h : (parseIpField s >>= f) = .error e)
    (hf : ∀ ip, f ip = .error e → e.code = .invalidArgument) : e.code = .invalidArgument := by
  cases hip : parseIpField s with
  | error e' =>
    rw [hip] at h
    obtain rfl := Except.error.inj h
    exact parseIpField_error hip
  | ok ip =>
    rw [hip] at h
    exact hf ip h

theorem parseIpField_string (ip : Net.IP) : parseIpField ip.string = .ok ip.normalize := by
  unfold parseIpField
  rw [Net.parseIp_string]

end NovaNet
