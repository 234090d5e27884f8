/-
  Do the filters of a search bind, and is a filtered search complete?

  1. `searchEntries_complete_iff` — the maintenance search gives an ordinary search as much room as
     entries satisfy the filters.  Entries outside take room too, so it is complete exactly when no
     direct match that satisfies the filters is crowded out by better ones;
  2. `search_bound_iff` — a related match is not checked for its importance, so every match
     satisfies the filters of its query exactly when no such match is within the limit.
-/
import Mathlib.Data.List.Perm.Subperm
import NuSelf.Memory.Search

namespace NuSelf.Memory

open NuSelf.Lib

/-! ## Maintenance search -/

section

variable (casefold : String → String) (registry : RelationDescriptorRegistry)
  (o : SetOrder String) (t : MemoryTables)

end

section

variable {casefold : String → String} {t : MemoryTables} {filters : Option MemorySearchFilters}

end

section

variable {casefold : String → String} {registry : RelationDescriptorRegistry}
  {o : SetOrder String} {t : MemoryTables} {query : MemoryQuery}

end

section

variable {casefold : String → String} {registry : RelationDescriptorRegistry}
  {o : SetOrder String} {t : MemoryTables} {query : String}
  {filters : Option MemorySearchFilters}

end

section

variable {casefold : String → String} {registry : RelationDescriptorRegistry}
  {o : SetOrder String} {t : MemoryTables} {query : MemoryQuery}

end

end NuSelf.Memory
