/-! The code of the features, with a word in capitals where values are filled in. -/

namespace FragmentMerge.Code

def lines (ls : List String) : String := "\n".intercalate ls

/-- Middleware that limits how many rows a model gives when a query names no limit. -/
def staticTakeMiddleware : String := lines [
  "'use strict';",
  "",
  "const limits = __LIMITS__;",
  "",
  "module.exports = async (params, next) => \x7b",
  "  const limit = limits[params.model];",
  "  if (limit !== undefined && params.action === 'findMany' && (params.args || \x7b\x7d).take === undefined) \x7b",
  "    params.args = \x7b ...params.args, take: limit \x7d;",
  "  \x7d",
  "  return next(params);",
  "\x7d;",
  ""]

def staticTakeExtension : String := lines [
  "'use strict';",
  "",
  "const \x7b Prisma \x7d = require('@prisma/client');",
  "",
  "const limits = __LIMITS__;",
  "",
  "module.exports = Prisma.defineExtension(\x7b",
  "  name: 'staticTake',",
  "  query: \x7b",
  "    $allModels: \x7b",
  "      findMany(\x7b model, args, query \x7d) \x7b",
  "        const limit = limits[model];",
  "        if (limit !== undefined && args.take === undefined) \x7b",
  "          args.take = limit;",
  "        \x7d",
  "        return query(args);",
  "      \x7d,",
  "    \x7d,",
  "  \x7d,",
  "\x7d);",
  ""]

/-- A search function for the models with a full-text index. -/
def fullTextMiddleware : String := lines [
  "'use strict';",
  "",
  "const indexes = __INDEXES__;",
  "",
  "function statement(model) \x7b",
  "  const index = indexes[model];",
  "  if (!index) \x7b",
  "    throw new Error(`no full-text index for $\x7bmodel\x7d`);",
  "  \x7d",
  "  return `SELECT * FROM \"$\x7bindex.schema\x7d\".\"$\x7bindex.table\x7d\" WHERE \"textSearch\" @@ plainto_tsquery('$\x7bindex.language\x7d', $1)`;",
  "\x7d",
  "",
  "module.exports.search = (client, model, query) => client.$queryRawUnsafe(statement(model), query);",
  ""]

def fullTextExtension : String := lines [
  "'use strict';",
  "",
  "const \x7b Prisma \x7d = require('@prisma/client');",
  "",
  "const indexes = __INDEXES__;",
  "",
  "module.exports = Prisma.defineExtension(\x7b",
  "  name: 'fullTextSearch',",
  "  model: \x7b",
  "    $allModels: \x7b",
  "      search(query) \x7b",
  "        const context = Prisma.getExtensionContext(this);",
  "        const index = indexes[context.$name];",
  "        if (!index) \x7b",
  "          throw new Error(`no full-text index for $\x7bcontext.$name\x7d`);",
  "        \x7d",
  "        return context.$parent.$queryRawUnsafe(",
  "          `SELECT * FROM \"$\x7bindex.schema\x7d\".\"$\x7bindex.table\x7d\" WHERE \"textSearch\" @@ plainto_tsquery('$\x7bindex.language\x7d', $1)`,",
  "          query,",
  "        );",
  "      \x7d,",
  "    \x7d,",
  "  \x7d,",
  "\x7d);",
  ""]

/-- The end of a patched client: it puts all middleware of a package to use. -/
def clientEpilogue : String := lines [
  "const __schemaweave = require(__PACKAGE__);",
  "const __PrismaClient = exports.PrismaClient;",
  "exports.PrismaClient = class PrismaClient extends __PrismaClient \x7b",
  "  constructor(...args) \x7b",
  "    super(...args);",
  "    for (const middleware of Object.values(__schemaweave)) \x7b",
  "      if (typeof middleware === 'function') this.$use(middleware);",
  "    \x7d",
  "  \x7d",
  "\x7d;"]

end FragmentMerge.Code
