import TableKernels.Proofs.Hosted.Start
import TableKernels.Proofs.Interchange
import TableKernels.Proofs.Json.Constant
import TableKernels.Proofs.Json.Range

/-!
# The constant across JSON

A module runs with exactly the constant that it was built with. The configuration and the manifest
carry the constant as a text from which a single rounding gives it back. The reader rounds the digits
and the power of ten before it puts them together, so it gives back the numbers with a short text;
others may come back as a number nearby. Everything else in the two texts comes back exactly.
-/

namespace TableKernels

open Json Compiled Decimal

variable {config : Config} {value : Binary64}

/-- The text of a valid configuration is read as the configuration, but for its constant. -/
theorem Config.ofJson_toJson (valid : config.IsValid)
    (read : reread config.globalConst = .ok value) (finite : value.isFinite = true) :
    Config.ofJson config.toJson = .ok { config with globalConst := value } := by
  have checked : Config.validate { config with globalConst := value } = .ok () :=
    Config.validate_eq_ok.mpr { valid with finite }
  have parsed := parse_toJson valid.finite
  rw [read] at parsed
  rw [Config.ofJson, parsed]
  simp only [Except.map, Except.mapError, bind, Except.bind, checked]
  rfl

/-- The manifest of a compiled module is the one that was written, but for its constant. -/
theorem Compiled.ofModule_compiled (valid : config.IsValid)
    (read : reread config.globalConst = .ok value) :
    Manifest.ofModule (kernelModule config).encode =
      .ok (some { Manifest.ofConfig config with globalConst := value }) := by
  have parsed := Manifest.ofJson_toJson (.ofConfig config) valid.finite
  change _ = (reread config.globalConst).map _ at parsed
  rw [read] at parsed
  rw [ofModule_manifest valid, parsed]
  rfl

/--
Both texts of the constant of a valid configuration are read, as one and the same finite number, and
everything around them comes back exactly. The text rounds to the constant, and if it is short the
constant comes back itself. The module runs with the constant in any case.
-/
theorem constant_in_json (config : Config) (accepted : config.validate = .ok ()) :
    ∃ value bytes kernel,
      Config.ofJson config.toJson = .ok { config with globalConst := value } ∧
      compile config = .ok bytes ∧
      Manifest.ofModule bytes =
        .ok (some { Manifest.ofConfig config with globalConst := value }) ∧
      HostedKernel.ofConfig config = .ok kernel ∧ kernel.constant = config.globalConst ∧
      config.globalConst.Nearest
        ((floatParts config.globalConst).literal config.globalConst.isNegative).value ∧
      (IsShort config.globalConst → value = config.globalConst) := by
  have valid := Config.validate_eq_ok.mp accepted
  obtain ⟨value, read, finite⟩ := exists_reread valid.finite
  have compiled : compile config = .ok (kernelModule config).encode :=
    compile_eq_ok.mpr ⟨valid, rfl⟩
  have manifest := Manifest.ofJson_toJson (.ofConfig config) valid.finite
  change _ = (reread config.globalConst).map _ at manifest
  rw [read] at manifest
  obtain ⟨kernel, hosted⟩ := HostedKernel.exists_ofModule valid manifest valid
  obtain ⟨frames, small, runs, _⟩ := HostedKernel.ofModule_spec valid hosted
  refine ⟨value, _, kernel, Config.ofJson_toJson valid read finite, compiled,
    ofModule_compiled valid read, (HostedKernel.ofConfig_eq compiled).trans hosted,
    runs.constant, nearest_floatParts _ _, fun short => ?_⟩
  exact Except.ok.inj (read.symm.trans (reread_of_isShort valid.finite short))

/-- The default constant has a short text, so its configuration comes back itself. -/
theorem constant_in_json_default : Config.default.validate = .ok () ∧
    IsShort Config.default.globalConst ∧
      Config.ofJson Config.default.toJson = .ok .default := by
  have accepted : Config.default.validate = .ok () := by decide
  have short : IsShort Config.default.globalConst := by
    refine ⟨?_, ?_⟩ <;> decide
  obtain ⟨value, _, _, read, _, _, _, _, _, same⟩ := constant_in_json .default accepted
  rw [same short] at read
  exact ⟨accepted, short, read⟩

/-- The number nearest to eleven over ten to the thirty-first power. -/
def lostConstant : Binary64 := ⟨0x39b64f86cb9cefaf⟩

/-- Neither text of this constant is read as the constant. -/
theorem constant_lost : ∃ bytes, compile { Config.default with globalConst := lostConstant } =
      .ok bytes ∧
    Config.ofJson (Config.toJson { Config.default with globalConst := lostConstant }) =
      .ok { Config.default with globalConst := ⟨0x39b64f86cb9cefb0⟩ } ∧
    (Manifest.ofModule bytes).map (·.map Manifest.globalConst) =
      .ok (some ⟨0x39b64f86cb9cefb0⟩) := by
  have valid : Config.IsValid { Config.default with globalConst := lostConstant } :=
    Config.validate_eq_ok.mp (by decide)
  have read : reread lostConstant = .ok ⟨0x39b64f86cb9cefb0⟩ := by
    have decimal : ((floatParts lostConstant).literal lostConstant.isNegative).digits = 11 ∧
        ((floatParts lostConstant).literal lostConstant.isNegative).exponent = -31 := by
      decide
    have rounded : (Binary64.ofInt (11 : ℕ)).div (tenPower 31) = ⟨0x39b64f86cb9cefb0⟩ := by
      decide +kernel
    have scaled : scale (.ofInt (11 : ℕ)) (-31) = some ⟨0x39b64f86cb9cefb0⟩ := by
      rw [scale, if_pos (by decide), if_neg (by decide), ← rounded]
      rfl
    rw [← decimal.1, ← decimal.2] at scaled
    exact reread_eq_scale valid.finite (by rw [decimal.1]; decide) scaled
  refine ⟨_, compile_eq_ok.mpr ⟨valid, rfl⟩, Config.ofJson_toJson valid read (by decide), ?_⟩
  rw [ofModule_compiled valid read]
  rfl

end TableKernels
