import GenScope.Query
import GenScope.Schema

/-!
# Queries from values

Any text is a query, and nothing else is.
-/

namespace GenScope

def SearchQuery.ofValue : Reader SearchQuery := fun v =>
  ((Reader.text v).inside "raw").map SearchQuery.ofText

end GenScope
