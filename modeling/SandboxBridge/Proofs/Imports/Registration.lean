import Mathlib.Data.List.Nodup
import SandboxBridge.Machine
import SandboxBridge.Proofs.Registry

/-!
How a bridge finds its imports: each has a name of its own, so that once all of them have been
registered under a module, each is found there.
-/

namespace SandboxBridge

namespace Import

theorem nodup_names : names.Nodup := by
  decide +kernel

theorem name_injective : Function.Injective name := fun i j same =>
  List.inj_on_of_nodup_map nodup_names i.mem_all j.mem_all same

def additions (module : String) : List (String × String × Handler) :=
  all.map fun i => (module, i.name, .adapter i)

theorem nodup_additions (module : String) : ((additions module).map pairOf).Nodup := by
  rw [additions, List.map_map]
  refine List.Nodup.map (fun i j same => ?_) (List.Nodup.of_map _ nodup_names)
  exact name_injective (Prod.mk.inj same).2

end Import

namespace Registry

theorem registerImports_eq (r : Registry Handler) (module : String) :
    r.registerImports module = r.registerEach (Import.additions module) := by
  rw [registerImports, registerEach, Import.additions, List.foldl_map]

theorem find?_registerImports (r : Registry Handler) (module : String) (i : Import) :
    (r.registerImports module).find? module i.name = some (.adapter i) := by
  have member : (module, i.name, .adapter i) ∈ Import.additions module :=
    List.mem_map.mpr ⟨i, i.mem_all, rfl⟩
  rw [registerImports_eq]
  exact find?_registerEach_of_nodup (Import.nodup_additions module) member

end Registry

namespace Machine

/-- Each import is found under its own name, whatever else has been registered. -/
def OffersImports (m : Machine) : Prop :=
  ∀ i : Import, m.imports.find? m.settings.importModule i.name = some (.adapter i)

end Machine

end SandboxBridge
