import TagTemplate.Proofs.Registry.Walk

/-!
Sequences of requests to a registry.

Each request is what a program of requests does, so that it has a walk of its own.  What every
step of a walk keeps is kept by every sequence of requests, whatever the callbacks do that are
called meanwhile.
-/

namespace TagTemplate

inductive RegistryRequest where
  | register (name : String) (binding : Binding)
  /-- register the tags of a plugin one after the other, up to the first that fails -/
  | registerAll (tags : List (String × Binding))
  | unregister (name : String)
  | setAutoload (autoload : String → RegistryProgram)
  | resolve (name param : String)

namespace Registry

/-- What a request leaves of a registry, whether it fails or not. -/
def perform (registry : Registry) : RegistryRequest → Registry
  | .register name binding => (registry.register name binding).2
  | .registerAll tags => (registerAll tags registry).2
  | .unregister name => (registry.unregister name).2
  | .setAutoload autoload => { registry with autoload := some (RegistryProgram.callback autoload) }
  | .resolve name param => (registry.resolve name param).2.1

def after (requests : List RegistryRequest) (registry : Registry) : Registry :=
  requests.foldl perform registry

end Registry

namespace RegistryRequest

def registering : List (String × Binding) → RegistryProgram
  | [] => .done
  | (name, binding) :: rest =>
    .register name binding.handler binding.convention binding.builtIn fun
      | .ok () => registering rest
      | .error error => .fail error

/-- The request as a program of its own. -/
def program : RegistryRequest → RegistryProgram
  | .register name binding => registering [(name, binding)]
  | .registerAll tags => registering tags
  | .unregister name => .unregister name fun _ => .done
  | .setAutoload autoload => .setAutoload autoload .done
  | .resolve name param => .resolve name param fun _ => .done

theorem run_registering (tags : List (String × Binding)) (registry : Registry) :
    ((registering tags).run registry).2.1 = (Registry.registerAll tags registry).2 := by
  induction tags generalizing registry with
  | nil => rfl
  | cons tag rest ih =>
      obtain ⟨name, binding⟩ := tag
      simp only [registering, RegistryProgram.run, Registry.registerAll]
      obtain ⟨result, left⟩ := registry.register name binding
      cases result with
      | ok _ => exact ih left
      | error error => rfl

theorem registerAll_single (name : String) (binding : Binding) (registry : Registry) :
    Registry.registerAll [(name, binding)] registry = registry.register name binding := by
  simp only [Registry.registerAll]
  obtain ⟨result, left⟩ := registry.register name binding
  cases result <;> rfl

theorem run_program (request : RegistryRequest) (registry : Registry) :
    (request.program.run registry).2.1 = registry.perform request := by
  cases request with
  | register name binding =>
      rw [program, run_registering, registerAll_single]
      rfl
  | registerAll tags => exact run_registering tags registry
  | unregister name => rfl
  | setAutoload autoload => rfl
  | resolve name param => rfl

end RegistryRequest

/-- A property of the bindings of a registry and of the callback that is installed in it. -/
def Registry.Meets (holds : Bindings → Option (String → RegistryProgram) → Prop)
    (registry : Registry) : Prop :=
  ∃ installed, registry.autoload = installed.map RegistryProgram.callback ∧
    holds registry.bindings installed

namespace Registry

variable {holds : Bindings → Option (String → RegistryProgram) → Prop} {registry : Registry}

/-- What every walk of a program keeps is kept by every request. -/
theorem Meets.perform
    (keeps : ∀ {program rest bindings left installed kept},
      RegistryMoment.Leads ⟨program, bindings, installed, []⟩ ⟨rest, left, kept, []⟩ →
      holds bindings installed → holds left kept)
    (met : registry.Meets holds) (request : RegistryRequest) :
    (registry.perform request).Meets holds := by
  obtain ⟨installed, same, now⟩ := met
  obtain ⟨kept, realised⟩ := request.program.realised registry.bindings installed
  have ran :
      (⟨registry.bindings, installed.map RegistryProgram.callback⟩ : Registry) = registry := by
    rw [← same]
  have walked := (realised.walks []).leads
  rw [ran, request.run_program] at walked
  refine ⟨kept, ?_, keeps walked now⟩
  rw [← request.run_program, ← ran]
  exact realised.keeps

theorem Meets.after
    (keeps : ∀ {program rest bindings left installed kept},
      RegistryMoment.Leads ⟨program, bindings, installed, []⟩ ⟨rest, left, kept, []⟩ →
      holds bindings installed → holds left kept)
    (requests : List RegistryRequest) (met : registry.Meets holds) :
    (registry.after requests).Meets holds := by
  induction requests generalizing registry with
  | nil => exact met
  | cons request rest ih => exact ih (met.perform keeps request)

end Registry

end TagTemplate
